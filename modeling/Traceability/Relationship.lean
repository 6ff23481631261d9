import Traceability.Text.Blank
import Traceability.Sorted.Map

/-!
A relationship has a name for each of its two ends. An index of relationships gives
the opposite of every name and the direction in which the name is read.
-/

namespace Traceability

structure Relationship where
  forward : String
  backward : String
  directional : Bool
deriving DecidableEq, Inhabited

namespace Relationship

def between (forward backward : String) : Relationship := ⟨forward, backward, true⟩

def symmetric (name : String) : Relationship := ⟨name, name, false⟩

/-- The relationships of a project that names none. -/
def standard : List Relationship :=
  [between "parents" "children", symmetric "sibling", between "output" "created-in",
    between "used-in" "input", between "create" "created-by"]

end Relationship

inductive Direction where
  | forward
  | backward
  | symmetric
deriving DecidableEq, Inhabited, Repr

namespace Direction

def sign : Direction → Int
  | forward => 1
  | backward => -1
  | symmetric => 0

def name : Direction → String
  | forward => "Forward"
  | backward => "Backward"
  | symmetric => "Symmetric"

end Direction

namespace Relationship

/-- What keeps relationships from being used together. -/
inductive Conflict where
  | blankName
  | sameNames (name : String)
  | differentNames (forward backward : String)
  | twoOpposites (name first second : String)
deriving DecidableEq

def Conflict.message : Conflict → String
  | blankName => "relationship names must not be empty"
  | sameNames name =>
      "directional relationship '" ++ name ++ "' needs distinct forward and backward names"
  | differentNames forward backward =>
      "symmetric relationship '" ++ forward ++ "'/'" ++ backward ++
        "' must use the same name twice"
  | twoOpposites name first second =>
      "relationship '" ++ name ++ "' declared with opposites '" ++ first ++ "' and '" ++
        second ++ "'"

/-- A relationship is well formed on its own. -/
def check (r : Relationship) : Except Conflict Unit :=
  if Text.isBlankText r.forward || Text.isBlankText r.backward then .error .blankName
  else if r.directional && r.forward == r.backward then .error (.sameNames r.forward)
  else if !r.directional && r.forward != r.backward then
    .error (.differentNames r.forward r.backward)
  else .ok ()

structure Index where
  types : List Relationship
  opposites : SortedMap String String
  directions : SortedMap String Direction

namespace Index

def empty : Index := ⟨[], ∅, ∅⟩

def addOpposite (opposites : SortedMap String String) (name opposite : String) :
    Except Conflict (SortedMap String String) :=
  match opposites.get? name with
  | some known =>
      if known = opposite then .ok opposites else .error (.twoOpposites name known opposite)
  | none => .ok (opposites.insert name opposite)

def addDirections (directions : SortedMap String Direction) (r : Relationship) :
    SortedMap String Direction :=
  if r.directional then (directions.insert r.forward .forward).insert r.backward .backward
  else directions.insert r.forward .symmetric

/-- A later direction of a name replaces an earlier one. -/
def add (x : Index) (r : Relationship) : Except Conflict Index :=
  match r.check with
  | .error e => .error e
  | .ok () =>
      match addOpposite x.opposites r.forward r.backward with
      | .error e => .error e
      | .ok opposites =>
          match addOpposite opposites r.backward r.forward with
          | .error e => .error e
          | .ok opposites => .ok ⟨x.types ++ [r], opposites, addDirections x.directions r⟩

def ofList (types : List Relationship) : Except Conflict Index := types.foldlM add empty

def contains (x : Index) (name : String) : Bool := x.opposites.contains name

def opposite? (x : Index) (name : String) : Option String := x.opposites.get? name

/-- Names that are not configured stand for themselves. -/
def opposite (x : Index) (name : String) : String := (x.opposite? name).getD name

def direction? (x : Index) (name : String) : Option Direction := x.directions.get? name

/-- All names of both ends, in order. -/
def names (x : Index) : List String := x.opposites.keys

end Index

end Relationship

end Traceability
