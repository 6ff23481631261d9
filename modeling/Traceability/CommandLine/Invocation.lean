import Traceability.CommandLine.Argument
import Traceability.Configuration
import Traceability.Number.Numeral
import Traceability.View.Request

/-!
The commands of the program. The configuration file and the output format may be given
before or after the command's name, and what is given after it counts.
-/

namespace Traceability.CommandLine

inductive Command where
  | check
  | list (filter : Option String) (columns : List String)
  | item (tag : String)
  | matrix (request : Matrix.Request)
  | graph (request : Graph.Request)

structure Invocation where
  configuration : Option String
  format : String
  command : Command

def configurationChoice : Choice := ⟨"config", some 'c', .once⟩

def formatChoice : Choice := ⟨"format", some 'f', .once⟩

def commonChoices : List Choice := [configurationChoice, formatChoice]

namespace Command

def names : List String := ["check", "list", "show", "matrix", "graph"]

/-- What may be given after the name of a command. -/
def level (name : String) : Level :=
  match name with
  | "list" => ⟨[⟨"filter", none, .once⟩, ⟨"attributes", none, .each⟩] ++ commonChoices, 0, []⟩
  | "show" => ⟨commonChoices, 1, []⟩
  | "matrix" =>
      ⟨[⟨"filter-primaries", none, .once⟩, ⟨"filter-secondaries", none, .once⟩,
        ⟨"max-primaries", none, .once⟩, ⟨"max-secondaries", none, .once⟩] ++ commonChoices, 1, []⟩
  | "graph" =>
      ⟨[⟨"start", none, .several⟩, ⟨"relationship", none, .several⟩] ++ commonChoices, 0, []⟩
  | _ => ⟨commonChoices, 0, []⟩

def natural? (s : List Char) : Option Nat := Numeral.bounded? (twoTo 64 - 1) s

/-- An optional number; one that is no natural number is refused. -/
def number? (value : Option String) : Option (Option Nat) :=
  match value with
  | none => some none
  | some text => (natural? text.toList).map some

/-- A relationship to follow, and how deep if a number follows the last colon. -/
def follow? (text : String) : Option Graph.Follow :=
  let reversed := text.toList.reverse
  let depth := (reversed.takeWhile (· != ':')).reverse
  match reversed.dropWhile (· != ':') with
  | [] => some ⟨text, none⟩
  | _ :: name => (natural? depth).map fun n => ⟨String.ofList name.reverse, some n⟩

def columns (values : List String) : List String :=
  values.flatMap fun value => (Text.split (· == ',') value.toList).map String.ofList

def matrix? (given : Given) (relationship : String) : Option Command := do
  let maxPrimaries ← number? (given.value? "max-primaries")
  let maxSecondaries ← number? (given.value? "max-secondaries")
  some (.matrix
    ⟨relationship, given.value? "filter-primaries", given.value? "filter-secondaries",
      maxPrimaries, maxSecondaries⟩)

def graph? (given : Given) : Option Command := do
  let follow ← (given.values "relationship").mapM follow?
  let start := given.values "start"
  if start.isEmpty || follow.isEmpty then none else some (.graph ⟨start, follow⟩)

def ofGiven? (name : String) (given : Given) : Option Command :=
  match name, given.operands with
  | "check", [] => some .check
  | "list", [] => some (.list (given.value? "filter") (columns (given.values "attributes")))
  | "show", [tag] => some (.item tag)
  | "matrix", [relationship] => matrix? given relationship
  | "graph", [] => graph? given
  | _, _ => none

/-- A limit of an option counts before the configured one, and zero lifts it. -/
def limitOr (configured : Option Nat) : Option Nat → Option Nat
  | some n => Configuration.limit n
  | none => configured

/-- What a command asks for, with the configured limits where it gives none. -/
def request (c : Configuration) : Command → View.Request
  | check => .diagnostics
  | list filter columns => .list filter columns
  | item tag => .item tag
  | matrix r =>
      .matrix { r with
        maxPrimaries := limitOr c.maxPrimaries r.maxPrimaries
        maxSecondaries := limitOr c.maxSecondaries r.maxSecondaries }
  | graph r =>
      .graph { r with follow := r.follow.map fun f => ⟨f.name, f.limit.or c.defaultMaxDepth⟩ }

end Command

namespace Invocation

def top : Level := ⟨commonChoices, 0, "help" :: Command.names⟩

/-- Help on a command exists if the command does. -/
def helpOn : List String → Stop
  | [] => .help
  | [name] => if name ∈ Command.names || name == "help" then .help else .refused
  | _ => .refused

def ofGiven? (outer : Given) (name : String) (inner : Given) : Option Invocation := do
  let command ← Command.ofGiven? name inner
  let files := outer.values "config" ++ inner.values "config"
  if files.any String.isEmpty then none
  else
    let configuration := (inner.value? "config").or (outer.value? "config")
    let format := (inner.value? "format").or (outer.value? "format")
    some ⟨configuration, format.getD "text", command⟩

/-- The invocation that arguments spell out. -/
def ofArguments (arguments : List String) : Except Stop Invocation :=
  match read top false .start arguments with
  | .error stop => .error stop
  | .ok (_, none) => .error .refused
  | .ok (outer, some (name, rest)) =>
      if name == "help" then .error (helpOn rest)
      else
        match read (Command.level name) false .start rest with
        | .error stop => .error stop
        | .ok (inner, _) =>
            match ofGiven? outer name inner with
            | some invocation => .ok invocation
            | none => .error .refused

end Invocation

end Traceability.CommandLine
