import Traceability.Session
import Traceability.Toml.Document
import Traceability.Toml.Record
import Traceability.View.Style

/-!
The configuration of a project: where its documents are, its relationships, the limits
of its answers and the styles of graph nodes. All but the folder has a value when it is
left out, and keys that mean nothing here are passed over.
-/

namespace Traceability

open Toml

structure Configuration where
  sourceFolder : String
  logLevel : String
  relationships : List Relationship
  cacheCapacity : Nat
  maxPrimaries : Option Nat
  maxSecondaries : Option Nat
  defaultMaxDepth : Option Nat
  styles : Styles
  debounceMilliseconds : Nat

namespace Configuration

/-- As a limit, zero stands for none. -/
def limit (n : Nat) : Option Nat := if 0 < n then some n else none

def relationship? (v : Value) : Option Relationship := do
  let r ← v.record?
  let forward ← r.require 0 "forward" Value.text?
  let backward ← r.require 1 "backward" Value.text?
  let directional ← r.read 2 "directional" Value.boolean? true
  some ⟨forward, backward, directional⟩

def relationships? : Value → Option (List Relationship)
  | .array elements => elements.mapM relationship?
  | _ => none

/-- The text of a style's value: of a text the text itself, else as it is written. -/
def styleText? (v : Value) : Option String :=
  match v with
  | .text s => some s
  | v => if v.isSmall then some (String.ofList v.written) else none

def style? (v : Value) : Option Style := do
  let entries ← v.entries?
  let texts ← entries.mapM fun (k, v) => (styleText? v).map fun text => (k, text)
  some (.ofList texts)

def styles? (v : Value) : Option Styles := do
  let entries ← v.entries?
  let styles ← entries.mapM fun (name, v) => (style? v).map fun style => (name, style)
  some (.ofList styles)

/-- Reads a group of settings; one that is left out has none of its parts. -/
def group (r : Record) (place : Nat) (name : String) : Option Record :=
  r.read place name Value.record? (.keyed [])

def ofRecord? (r : Record) : Option Configuration := do
  let source ← r.require 0 "traceables" Value.record?
  let sourceFolder ← source.require 0 "source_folder" Value.text?
  let logLevel ← source.read 1 "log_level" Value.text? "info"
  let relationships ← r.read 1 "relationships" relationships? Relationship.standard
  let filter ← group r 2 "filter"
  let cacheCapacity ← filter.read 0 "cache_capacity" Value.word? 128
  let matrix ← group r 3 "matrix"
  let maxPrimaries ← matrix.read 0 "max_primaries" Value.word? 0
  let maxSecondaries ← matrix.read 1 "max_secondaries" Value.word? 0
  let graph ← group r 4 "graph"
  let defaultMaxDepth ← graph.read 0 "default_max_depth" (fun v => v.word?.map some) none
  let styles ← graph.read 1 "styles" styles? ∅
  let watch ← group r 5 "watch"
  let debounceMilliseconds ← watch.read 0 "debounce_ms" Value.word? 500
  some
    { sourceFolder, logLevel, relationships, cacheCapacity
      maxPrimaries := limit maxPrimaries
      maxSecondaries := limit maxSecondaries
      defaultMaxDepth
      styles := Style.overlay Style.standard styles
      debounceMilliseconds }

/-- The configuration that a text describes. -/
def read (text : String) : Except Error Configuration :=
  match (Toml.read? text.toList).bind fun v => v.record?.bind ofRecord? with
  | some c => .ok c
  | none => .error (.configuration "Invalid configuration")

/-- A new session with the configured relationships. -/
def session (c : Configuration) : Except Error Session :=
  Session.ofRelationships c.relationships c.cacheCapacity

end Configuration

end Traceability
