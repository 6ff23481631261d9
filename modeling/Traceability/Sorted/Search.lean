import Traceability.Sorted.Rank

/-!
The search for a value in an increasing list, which halves the positions that are left
until there is one.
-/

namespace Traceability.Rank

variable {α : Type} [Rank α]

/-- Halves the positions from `low` up to `high` until one is left: the first one whose value
does not come before the searched one. -/
def lowerBound (l : List α) (a : α) (low high : Nat) : Nat :=
  if low < high then
    let middle := low + (high - low) / 2
    match l[middle]? with
    | some b =>
        if before b a then lowerBound l a (middle + 1) high else lowerBound l a low middle
    | none => low
  else low
termination_by high - low
decreasing_by all_goals omega

/-- The position of a value, or else the position where it is missing. -/
def search [DecidableEq α] (l : List α) (a : α) : Except Nat Nat :=
  let i := lowerBound l a 0 l.length
  if l[i]? = some a then .ok i else .error i

end Traceability.Rank
