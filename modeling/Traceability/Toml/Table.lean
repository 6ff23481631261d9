import Traceability.Toml.Value

/-!
Tables while they are read. A table is stated by its own header, implied by the header
of a table inside it, or made by dotted keys; a stated table is not stated again, and
dotted keys add to tables that dotted keys made. Headers in double brackets add an
element to a list of tables.
-/

namespace Traceability.Toml

inductive Making where
  | stated
  | implied
  | dotted
deriving DecidableEq

/-- What a key holds: a finished value, a table, or a list of tables of which the last
can still grow. -/
inductive Node where
  | value (v : Value)
  | table (making : Making) (entries : List (String × Node))
  | tables (finished : List Value) (last : List (String × Node))

abbrev Entries := List (String × Node)

mutual

def Node.finish : Node → Value
  | .value v => v
  | .table _ entries => .table (finishAll entries)
  | .tables finished last => .array (finished ++ [.table (finishAll last)])

def finishAll : List (String × Node) → List (String × Value)
  | [] => []
  | (k, n) :: rest => (k, n.finish) :: finishAll rest

end

namespace Entries

def find? (k : String) (t : Entries) : Option Node :=
  (List.find? (fun e => e.1 == k) t).map Prod.snd

/-- Sets the node under a key. -/
def put (k : String) (n : Node) : Entries → Entries
  | [] => [(k, n)]
  | (k', n') :: rest => if k' == k then (k, n) :: rest else (k', n') :: put k n rest

/-- Changes the table at a path of keys; a list of tables stands for its last one. -/
def within (change : Entries → Option Entries) : List String → Entries → Option Entries
  | [], t => change t
  | k :: path, t =>
      match find? k t with
      | some (.table making inner) =>
          (within change path inner).map fun inner => put k (.table making inner) t
      | some (.tables finished last) =>
          (within change path last).map fun last => put k (.tables finished last) t
      | _ => none

/-- Acts at the last key of a header's path; tables before it that do not exist yet
are implied. -/
def atHeader (act : String → Entries → Option Entries) : List String → Entries → Option Entries
  | [], _ => none
  | [k], t => act k t
  | k :: path, t =>
      match find? k t with
      | none => (atHeader act path []).map fun inner => put k (.table .implied inner) t
      | some (.table making inner) =>
          (atHeader act path inner).map fun inner => put k (.table making inner) t
      | some (.tables finished last) =>
          (atHeader act path last).map fun last => put k (.tables finished last) t
      | some (.value _) => none

def state (k : String) (t : Entries) : Option Entries :=
  match find? k t with
  | none => some (put k (.table .stated []) t)
  | some (.table .implied inner) => some (put k (.table .stated inner) t)
  | _ => none

def append (k : String) (t : Entries) : Option Entries :=
  match find? k t with
  | none => some (put k (.tables [] []) t)
  | some (.tables finished last) =>
      some (put k (.tables (finished ++ [.table (finishAll last)]) []) t)
  | _ => none

/-- Gives a key, or a dotted key, its value. The table that holds the last part of a
dotted key must be one that dotted keys made. -/
def assign (v : Value) : List String → Entries → Option Entries
  | [], _ => none
  | [k], t => if (find? k t).isSome then none else some (put k (.value v) t)
  | k :: path, t =>
      let direct := path.length == 1
      match find? k t with
      | none => (assign v path []).map fun inner => put k (.table .dotted inner) t
      | some (.table .dotted inner) =>
          (assign v path inner).map fun inner => put k (.table .dotted inner) t
      | some (.table .implied inner) =>
          if direct then none
          else (assign v path inner).map fun inner => put k (.table .implied inner) t
      | some (.tables finished last) =>
          if direct then none
          else (assign v path last).map fun last => put k (.tables finished last) t
      | _ => none

end Entries

end Traceability.Toml
