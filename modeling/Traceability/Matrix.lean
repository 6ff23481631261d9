import Traceability.Number.Power
import Traceability.Sorted.Set

/-!
A matrix relates primaries, its rows, to secondaries, its columns. Rows and columns
stand in tag order and each takes part in a pair. A matrix is split into pages of
neighbouring rows and columns, which keep the pairs inside them.
-/

namespace Traceability

/-- A row and a column that are related. -/
structure Pair where
  primary : String
  secondary : String
deriving DecidableEq

instance : Rank Pair :=
  Rank.byKey (fun p => [p.primary, p.secondary]) fun {p q} h => by
    cases p
    cases q
    simp_all

structure Matrix where
  relationship : String
  opposite : String
  primaries : List String
  secondaries : List String
  pairs : SortedSet Pair
deriving DecidableEq

namespace Matrix

/-- The matrix of some pairs, whose tags are its rows and columns. -/
def ofPairs (relationship opposite : String) (pairs : List Pair) : Matrix :=
  ⟨relationship, opposite, (SortedSet.ofList (pairs.map Pair.primary)).toList,
    (SortedSet.ofList (pairs.map Pair.secondary)).toList, SortedSet.ofList pairs⟩

def isEmpty (m : Matrix) : Bool := m.pairs.isEmpty

def isRelated (m : Matrix) (primary secondary : String) : Bool :=
  m.pairs.contains ⟨primary, secondary⟩

/-- The secondaries of a primary, in tag order. -/
def relatives (m : Matrix) (primary : String) : List String :=
  (m.pairs.toList.filter fun p => p.primary == primary).map Pair.secondary

/-- One flag for each column. -/
def row (m : Matrix) (primary : String) : List Bool := m.secondaries.map (m.isRelated primary)

/-- The half-open ranges of the given size that cover the numbers below `length`; the
last one can be shorter. Without a size, or with size zero, there is one range. -/
def ranges (length : Nat) (size : Option Nat) : List (Nat × Nat) :=
  match size with
  | some size =>
      if 0 < size && size < length then
        (List.range ((length + size - 1) / size)).map fun i =>
          (i * size, min (i * size + size) length)
      else [(0, length)]
  | none => [(0, length)]

/-- The ranges where every sum that forms one fits a word of 64 bits. -/
def wordRanges? (length : Nat) (size : Option Nat) : Option (List (Nat × Nat)) :=
  let fits (range : Nat × Nat) : Bool :=
    range == (0, length) || range.1 + size.getD 0 < twoTo 64
  if (ranges length size).all fits then some (ranges length size) else none

def slice (l : List String) (range : Nat × Nat) : List String :=
  (l.drop range.1).take (range.2 - range.1)

def page (m : Matrix) (rows columns : Nat × Nat) : Matrix :=
  let primaries := slice m.primaries rows
  let secondaries := slice m.secondaries columns
  ⟨m.relationship, m.opposite, primaries, secondaries,
    m.pairs.filter fun p => decide (p.primary ∈ primaries) && decide (p.secondary ∈ secondaries)⟩

/-- The pages with at most the given numbers of columns and rows, all pages of the
first rows before those of the next rows. -/
def split (m : Matrix) (maxSecondaries maxPrimaries : Option Nat) : List Matrix :=
  (ranges m.primaries.length maxPrimaries).flatMap fun rows =>
    (ranges m.secondaries.length maxSecondaries).map fun columns => m.page rows columns

end Matrix

end Traceability
