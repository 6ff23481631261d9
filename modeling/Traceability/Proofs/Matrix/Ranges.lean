import Traceability.Matrix

/-!
The ranges into which a length is divided. Each starts where the one before it ends,
so that the slices of a list along the ranges are the list cut into pieces.
-/

namespace Traceability.Matrix

/-- Ranges lead from a start to a stop, each from where the one before it ends. -/
def Tiles : Nat → List (Nat × Nat) → Nat → Prop
  | start, [], stop => start = stop
  | start, range :: ranges, stop => range.1 = start ∧ range.1 ≤ range.2 ∧ Tiles range.2 ranges stop

theorem Tiles.le {start stop : Nat} {ranges : List (Nat × Nat)} (h : Tiles start ranges stop) :
    start ≤ stop := by
  induction ranges generalizing start with
  | nil => exact Nat.le_of_eq h
  | cons range ranges ih =>
    obtain ⟨hstart, hrange, hrest⟩ := h
    have hstop := ih hrest
    omega

/-- The range with a number starts at the number's multiple of the size. -/
theorem tiles_range' (size length first count : Nat)
    (h : ∀ i < first + count, i * size ≤ length) :
    Tiles (min (first * size) length)
      ((List.range' first count).map fun i => (i * size, min (i * size + size) length))
      (min ((first + count) * size) length) := by
  induction count generalizing first with
  | zero => rfl
  | succ count ih =>
    have hfirst : first * size ≤ length := h first (by omega)
    have hnext : first * size + size = (first + 1) * size := (Nat.succ_mul first size).symm
    have hcount : first + (count + 1) = first + 1 + count := by omega
    rw [List.range'_succ, List.map_cons, hcount, hnext]
    refine ⟨(Nat.min_eq_left hfirst).symm, ?_, ih (first + 1) (by rwa [← hcount])⟩
    simp only [← hnext]
    omega

theorem tiles_ranges (length : Nat) (size : Option Nat) :
    Tiles 0 (ranges length size) length := by
  have hwhole : Tiles 0 [(0, length)] length := ⟨rfl, Nat.zero_le length, rfl⟩
  unfold ranges
  split
  · rename_i size
    split
    · rename_i hsize
      have hpos : 0 < size := by simp at hsize; omega
      have hbelow : ∀ i < (length + size - 1) / size, i * size ≤ length := by
        intro i hi
        have hmul := (Nat.le_div_iff_mul_le hpos).mp (Nat.succ_le_of_lt hi)
        rw [Nat.succ_mul] at hmul
        omega
      have hall : length ≤ (length + size - 1) / size * size := by
        have hrest := Nat.div_add_mod' (length + size - 1) size
        have hmod := Nat.mod_lt (length + size - 1) hpos
        omega
      have htiles := tiles_range' size length 0 ((length + size - 1) / size)
        (by simpa using hbelow)
      rwa [Nat.zero_mul, Nat.zero_min, Nat.zero_add, Nat.min_eq_right hall,
        ← List.range_eq_range'] at htiles
    · exact hwhole
  · exact hwhole

theorem ranges_ne_nil (length : Nat) (size : Option Nat) : ranges length size ≠ [] := by
  intro hnil
  have htiles := tiles_ranges length size
  rw [hnil] at htiles
  have hlength : 0 = length := htiles
  subst hlength
  cases size <;> simp [ranges] at hnil

theorem width_le_of_mem_ranges {length size : Nat} (hsize : 0 < size) {range : Nat × Nat}
    (h : range ∈ ranges length (some size)) : range.2 - range.1 ≤ size := by
  simp only [ranges] at h
  split at h
  · obtain ⟨i, -, rfl⟩ := List.mem_map.mp h
    simp only
    omega
  · rename_i hlarge
    rw [List.mem_singleton.mp h]
    simp at hlarge
    omega

theorem slice_append_slice (l : List String) {start middle stop : Nat} (h : start ≤ middle)
    (h' : middle ≤ stop) :
    slice l (start, middle) ++ slice l (middle, stop) = slice l (start, stop) := by
  have hdrop : l.drop middle = (l.drop start).drop (middle - start) := by
    rw [List.drop_drop, Nat.add_sub_cancel' h]
  have hwidth : stop - start = (middle - start) + (stop - middle) := by omega
  simp only [slice]
  rw [hdrop, hwidth, List.take_add]

theorem flatMap_slice (l : List String) {start stop : Nat} {ranges : List (Nat × Nat)}
    (h : Tiles start ranges stop) : ranges.flatMap (slice l) = slice l (start, stop) := by
  induction ranges generalizing start with
  | nil =>
    have hstop : start = stop := h
    simp [slice, hstop]
  | cons range ranges ih =>
    obtain ⟨rfl, hrange, hrest⟩ := h
    rw [List.flatMap_cons, ih hrest]
    exact slice_append_slice l hrange hrest.le

/-- The slices along the ranges of a list's length make up the list. -/
theorem flatMap_slice_ranges (l : List String) (size : Option Nat) :
    (ranges l.length size).flatMap (slice l) = l := by
  rw [flatMap_slice l (tiles_ranges l.length size)]
  simp [slice]

theorem length_slice_le (l : List String) (range : Nat × Nat) :
    (slice l range).length ≤ range.2 - range.1 := by
  rw [slice, List.length_take]
  exact Nat.min_le_left ..

end Traceability.Matrix
