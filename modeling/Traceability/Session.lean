import Traceability.Filter.Cache
import Traceability.Filter.Evaluation
import Traceability.Resolution
import Traceability.Matrix
import Traceability.Graph
import Traceability.Error

/-!
A session holds the register of items, the relationships that are configured, the
problems found so far and the parsed filters. Declarations are registered and
withdrawn, links are resolved, and the questions of a user are answered.
-/

namespace Traceability

structure Session where
  registry : Registry
  index : Relationship.Index
  diagnostics : Diagnostics
  cache : Filter.Cache

structure Matrix.Request where
  relationship : String
  filterPrimaries : Option String
  filterSecondaries : Option String
  maxPrimaries : Option Nat
  maxSecondaries : Option Nat

namespace Session

def empty (index : Relationship.Index) (cacheCapacity : Nat) : Session :=
  ⟨.empty, index, .empty, .empty cacheCapacity⟩

def ofRelationships (relationships : List Relationship) (cacheCapacity : Nat) : Except Error Session :=
  match Relationship.Index.ofList relationships with
  | .ok index => .ok (empty index cacheCapacity)
  | .error conflict => .error (.relationships conflict)

/-- A report for each attribute name that no filter can read. -/
def nameReports (tag : String) (attributes : Attributes) (origin : Origin) : List Diagnostic :=
  (attributes.keys.filter fun name => !Filter.isIdentifier name.toList).map fun name =>
    Diagnostic.invalidAttributeName tag name origin

/-- Registers a declaration under its trimmed tag. A duplicate is reported, and it is
an error although it waits for the tag. -/
def register (s : Session) (tag : String) (attributes : Attributes) (origin : Origin) :
    Session × Except Error Unit :=
  if Text.isBlankText tag then (s, .error (.blankTag origin))
  else
    let tag := Text.trimmed tag
    let diagnostics := s.diagnostics.record (nameReports tag attributes origin)
    match s.registry.register (Item.declared tag attributes origin) with
    | (registry, none) => ({ s with registry, diagnostics }, .ok ())
    | (registry, some duplicate) =>
        let report := Diagnostic.duplicateTag duplicate.tag duplicate.duplicate
        ({ s with registry, diagnostics := diagnostics.record [report] },
          .error (.duplicateTag duplicate))

def resolve (s : Session) : Session × Resolution.Summary :=
  let outcome := Resolution.ofRegistry s.index s.registry
  ({ s with registry := outcome.registry,
            diagnostics := s.diagnostics.withResolution outcome.reports },
    outcome.summary)

/-- A declaration that took over a freed tag is no longer a duplicate. -/
def dismissPromoted (registry : Registry) (diagnostics : Diagnostics) (tag : String) :
    Diagnostics :=
  match registry.holder? tag with
  | some origin => diagnostics.dismiss .duplicateTag tag origin
  | none => diagnostics

/-- Withdraws the declarations of a document without resolving links again. -/
def forget (s : Session) (document : String) : Session × List String :=
  let (registry, held) := s.registry.purge document
  let diagnostics := held.foldl (dismissPromoted registry) (s.diagnostics.purge document)
  ({ s with registry, diagnostics }, held)

def purge (s : Session) (document : String) : Session × List String :=
  let (s, held) := s.forget document
  (s.resolve.1, held)

def select (items : List Item) (e : Filter.Expression) : List Item :=
  items.filter fun item => e.accepts item.value?

/-- The items that a filter accepts, in tag order. -/
def filter (s : Session) (text : String) : Session × Except Error (List Item) :=
  match s.cache.request text with
  | (cache, .ok e) => ({ s with cache }, .ok (select s.registry.all e))
  | (cache, .error error) => ({ s with cache }, .error (.filter error))

def item (s : Session) (tag : String) : Except Error Item :=
  match s.registry.get? tag with
  | some item => .ok item
  | none => .error (.unknownTag tag)

/-- The items that an optional filter accepts; a blank one accepts all. -/
def admissible (s : Session) (text : Option String) : Session × Except Error (List Item) :=
  match text with
  | none => (s, .ok s.registry.all)
  | some text =>
      if Text.isBlankText text then (s, .ok s.registry.all)
      else s.filter (Text.trimmed text)

def require (s : Session) (name : String) : Except Error Unit :=
  if s.index.contains name then .ok ()
  else .error (.unknownRelationship name s.index.names)

/-- The related pairs with a row among the primaries and a column among the tags. -/
def pairs (relationship : String) (primaries : List Item) (secondaries : List String) :
    List Pair :=
  primaries.flatMap fun primary =>
    ((primary.relatives relationship).filter fun tag => decide (tag ∈ secondaries)).map fun tag =>
      ⟨primary.tag, tag⟩

def matrix (s : Session) (request : Matrix.Request) : Session × Except Error Matrix :=
  match s.require request.relationship with
  | .error e => (s, .error e)
  | .ok () =>
      match s.admissible request.filterPrimaries with
      | (s, .error e) => (s, .error e)
      | (s, .ok primaries) =>
          match s.admissible request.filterSecondaries with
          | (s, .error e) => (s, .error e)
          | (s, .ok secondaries) =>
              (s, .ok (Matrix.ofPairs request.relationship (s.index.opposite request.relationship)
                (pairs request.relationship primaries (secondaries.map Item.tag))))

def pages (s : Session) (request : Matrix.Request) : Session × Except Error (List Matrix) :=
  match s.matrix request with
  | (s, .error e) => (s, .error e)
  | (s, .ok matrix) => (s, .ok (matrix.split request.maxSecondaries request.maxPrimaries))

/-- The relationships of a request are checked before its start tags. -/
def checkRequest (s : Session) (request : Graph.Request) : Except Error Unit :=
  match request.follow.find? fun f => !s.index.contains f.name with
  | some f => .error (.unknownRelationship f.name s.index.names)
  | none =>
      match request.start.find? fun tag => !s.registry.contains tag with
      | some tag => .error (.unknownTag tag)
      | none => .ok ()

def graph (s : Session) (request : Graph.Request) : Except Error Graph :=
  match s.checkRequest request with
  | .error e => .error e
  | .ok () => .ok (Graph.walk s.registry s.index request)

end Session

end Traceability
