import Traceability.Sorted.Search

/-!
Where the search by halves ends. It keeps that what lies below its positions comes before
the searched value and that what lies above does not, so that in an increasing list it ends
where the value is, or else where it is missing.
-/

namespace Traceability.Rank

variable {α : Type} [Rank α]

/-- The values in front of `low` come before the searched one, and none from `high` on does. -/
structure Bounds (l : List α) (a : α) (low high : Nat) : Prop where
  low_le : low ≤ high
  high_le : high ≤ l.length
  before_low : ∀ i b, l[i]? = some b → i < low → before b a = true
  not_before_high : ∀ i b, l[i]? = some b → high ≤ i → before b a = false

section Search

variable {l : List α} {a : α} {low high : Nat}

theorem before_of_getElem? (hl : l.Pairwise fun a b => before a b = true) {i j : Nat} {b c : α}
    (hij : i < j) (hb : l[i]? = some b) (hc : l[j]? = some c) : before b c = true := by
  obtain ⟨hi, rfl⟩ := List.getElem?_eq_some_iff.mp hb
  obtain ⟨hj, rfl⟩ := List.getElem?_eq_some_iff.mp hc
  exact List.pairwise_iff_getElem.mp hl i j hi hj hij

theorem Bounds.right (hl : l.Pairwise fun a b => before a b = true) (h : Bounds l a low high)
    {middle : Nat} {b : α} (hb : l[middle]? = some b) (hmiddle : middle < high)
    (hbefore : before b a = true) : Bounds l a (middle + 1) high where
  low_le := hmiddle
  high_le := h.high_le
  before_low := by
    intro i c hc hi
    rcases Nat.lt_or_eq_of_le (Nat.le_of_lt_succ hi) with hlt | rfl
    · exact trans (before_of_getElem? hl hlt hc hb) hbefore
    · rw [hb, Option.some.injEq] at hc
      rwa [← hc]
  not_before_high := h.not_before_high

theorem Bounds.left (hl : l.Pairwise fun a b => before a b = true) (h : Bounds l a low high)
    {middle : Nat} {b : α} (hb : l[middle]? = some b) (hlow : low ≤ middle) (hhigh : middle < high)
    (hbefore : before b a = false) : Bounds l a low middle where
  low_le := hlow
  high_le := by
    have := h.high_le
    omega
  before_low := h.before_low
  not_before_high := by
    intro i c hc hi
    rcases Nat.lt_or_eq_of_le hi with hlt | rfl
    · cases hca : before c a with
      | false => rfl
      | true => rw [← hbefore, trans (before_of_getElem? hl hlt hb hc) hca]
    · rw [hb, Option.some.injEq] at hc
      rwa [← hc]

theorem bounds_lowerBound (hl : l.Pairwise fun a b => before a b = true)
    (h : Bounds l a low high) :
    Bounds l a (lowerBound l a low high) (lowerBound l a low high) := by
  -- Either half keeps the bounds, and where the search ends they have met.
  fun_induction lowerBound l a low high with
  | case1 low high hlt middle b hb hbefore ih =>
    exact ih (h.right hl hb (by omega) hbefore)
  | case2 low high hlt middle b hb hbefore ih =>
    exact ih (h.left hl hb (by omega) (by omega) (Bool.eq_false_iff.mpr hbefore))
  | case3 low high hlt middle hnone =>
    have hhigh := h.high_le
    rw [List.getElem?_eq_none_iff] at hnone
    omega
  | case4 low high hnot =>
    obtain rfl : low = high := Nat.le_antisymm h.low_le (Nat.le_of_not_lt hnot)
    exact h

theorem bounds_all (l : List α) (a : α) : Bounds l a 0 l.length where
  low_le := Nat.zero_le _
  high_le := Nat.le_refl _
  before_low := by
    intro i b _ hi
    contradiction
  not_before_high := by
    intro i b hb hi
    rw [List.getElem?_eq_none_iff.mpr hi] at hb
    contradiction

/-- In an increasing list only the position at the bound can hold the value. -/
theorem Bounds.getElem?_eq_some_iff (hl : l.Pairwise fun a b => before a b = true) {i : Nat}
    (h : Bounds l a i i) : l[i]? = some a ↔ a ∈ l := by
  constructor
  · exact List.mem_of_getElem?
  · intro hmem
    obtain ⟨j, hj⟩ := List.mem_iff_getElem?.mp hmem
    rcases Nat.lt_trichotomy i j with hij | rfl | hji
    · have hi : i < l.length := Nat.lt_trans hij (List.getElem?_eq_some_iff.mp hj).1
      have hbefore := before_of_getElem? hl hij (List.getElem?_eq_getElem hi) hj
      have hnot := h.not_before_high i l[i] (List.getElem?_eq_getElem hi) (Nat.le_refl i)
      rw [hnot] at hbefore
      contradiction
    · exact hj
    · have hbefore := h.before_low j a hj hji
      rw [irrefl] at hbefore
      contradiction

theorem isOk_search_iff [DecidableEq α] (hl : l.Pairwise fun a b => before a b = true) (a : α) :
    (search l a).isOk = true ↔ a ∈ l := by
  rw [← (bounds_lowerBound hl (bounds_all l a)).getElem?_eq_some_iff hl, search]
  split
  · rename_i hfound
    simp [hfound, Except.isOk, Except.toBool]
  · rename_i hmissing
    simp [hmissing, Except.isOk, Except.toBool]

end Search

end Traceability.Rank
