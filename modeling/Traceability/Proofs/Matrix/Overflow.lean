import Traceability.Proofs.Matrix.Ranges

/-!
The ranges of a length where sums must fit a word of 64 bits. Each range but the last is as
long as the size. The end of a range is its start and the size, cut at the length only when the
sum is there, so the last sum can go past the word although no range does.
-/

namespace Traceability.Matrix

variable {length size : Nat}

theorem ranges_of_lt (hpos : 0 < size) (hlt : size < length) :
    ranges length (some size) =
      (List.range ((length - 1) / size + 1)).map fun i =>
        (i * size, min (i * size + size) length) := by
  have hcount : (length + size - 1) / size = (length - 1) / size + 1 := by
    have hsum : length + size - 1 = length - 1 + size := by omega
    rw [hsum, Nat.add_div_right _ hpos]
  simp only [ranges, hcount]
  rw [if_pos (by simp [hpos, hlt])]

theorem ranges_of_not_lt (h : ¬ (0 < size ∧ size < length)) :
    ranges length (some size) = [(0, length)] := by
  simp only [ranges]
  rw [if_neg (by simpa using h)]

/-- The starts of the ranges are the multiples of the size below the length. -/
theorem mul_lt_of_le_div (hlength : 0 < length) {i : Nat} (hi : i ≤ (length - 1) / size) :
    i * size < length := by
  have hmul := Nat.div_mul_le_self (length - 1) size
  have hle := Nat.mul_le_mul_right size hi
  omega

theorem lt_of_mem_ranges (hlength : 0 < length) {size : Option Nat} {range : Nat × Nat}
    (h : range ∈ ranges length size) : range.1 < range.2 := by
  cases size with
  | none =>
    rw [List.mem_singleton.mp h]
    exact hlength
  | some size =>
    by_cases hsize : 0 < size ∧ size < length
    · rw [ranges_of_lt hsize.1 hsize.2, List.mem_map] at h
      obtain ⟨i, hi, rfl⟩ := h
      have hstart := mul_lt_of_le_div hlength (Nat.le_of_lt_succ (List.mem_range.mp hi))
      simp only
      omega
    · rw [ranges_of_not_lt hsize, List.mem_singleton] at h
      rw [h]
      exact hlength

/-- Behind a range that is not the last one there is room for its whole size. -/
theorem width_of_mem_dropLast_ranges (hpos : 0 < size) {range : Nat × Nat}
    (h : range ∈ (ranges length (some size)).dropLast) :
    range.2 - range.1 = min size length := by
  by_cases hlt : size < length
  · rw [ranges_of_lt hpos hlt, List.range_succ, List.map_append, List.map_singleton,
      List.dropLast_concat, List.mem_map] at h
    obtain ⟨i, hi, rfl⟩ := h
    have hnext := mul_lt_of_le_div (by omega) (Nat.succ_le_of_lt (List.mem_range.mp hi))
    rw [Nat.succ_mul] at hnext
    simp only
    omega
  · rw [ranges_of_not_lt (by omega)] at h
    contradiction

theorem wordRanges?_of_lt (hpos : 0 < size) (hlt : size < length) :
    wordRanges? length (some size) =
      if (length - 1) / size * size + size < twoTo 64 then some (ranges length (some size))
      else none := by
  have hfits (i : Nat) : ((i * size, min (i * size + size) length) == (0, length)) = false := by
    rw [beq_eq_false_iff_ne, Ne, Prod.mk.injEq]
    omega
  have hall : ((ranges length (some size)).all fun range =>
      range == (0, length) || decide (range.1 + (some size).getD 0 < twoTo 64)) = true ↔
        (length - 1) / size * size + size < twoTo 64 := by
    rw [ranges_of_lt hpos hlt, List.all_map, List.all_eq_true]
    simp only [Function.comp_apply, hfits, Bool.false_or, decide_eq_true_eq, Option.getD_some,
      List.mem_range]
    constructor
    · intro h
      exact h _ (Nat.lt_succ_self _)
    · intro h i hi
      have hle := Nat.mul_le_mul_right size (Nat.le_of_lt_succ hi)
      omega
  unfold wordRanges?
  simp only [hall]

/-- A single range for the whole length is formed without a sum. -/
theorem wordRanges?_of_whole {size : Option Nat} (h : ranges length size = [(0, length)]) :
    wordRanges? length size = some [(0, length)] := by
  simp [wordRanges?, h]

theorem wordRanges?_eq_none_iff (length : Nat) (size : Option Nat) :
    wordRanges? length size = none ↔
      ∃ n, size = some n ∧ 0 < n ∧ n < length ∧ twoTo 64 ≤ (length - 1) / n * n + n := by
  cases size with
  | none =>
    have hwhole : wordRanges? length none = some [(0, length)] := wordRanges?_of_whole rfl
    simp [hwhole]
  | some size =>
    by_cases hsize : 0 < size ∧ size < length
    · rw [wordRanges?_of_lt hsize.1 hsize.2]
      simp [hsize.1, hsize.2]
    · rw [wordRanges?_of_whole (ranges_of_not_lt hsize)]
      constructor
      · intro h
        contradiction
      · intro h
        obtain ⟨n, hn, hpos, hlt, -⟩ := h
        cases hn
        exact absurd ⟨hpos, hlt⟩ hsize

theorem eq_ranges_of_wordRanges? {size : Option Nat} {found : List (Nat × Nat)}
    (h : wordRanges? length size = some found) : found = ranges length size := by
  simp only [wordRanges?] at h
  split at h
  · exact (Option.some.inj h).symm
  · contradiction

/-- A sum goes past the word exactly if the size is below the length and the first multiple of
the size that reaches the length is no word. Otherwise the ranges lead from zero to the length,
each from where the one before it ends, none of them empty unless the length is zero, and, for
a size that is not zero, each at most of that size and all but the last of exactly that size,
or of the length if that is less. -/
theorem ranges_unless_overflow (length : Nat) (size : Option Nat) :
    (wordRanges? length size = none ↔
      ∃ n, size = some n ∧ 0 < n ∧ n < length ∧ twoTo 64 ≤ (length - 1) / n * n + n) ∧
    ∀ found, wordRanges? length size = some found →
      found ≠ [] ∧ Tiles 0 found length ∧
      (0 < length → ∀ range ∈ found, range.1 < range.2) ∧
      ∀ n, size = some n → 0 < n →
        (∀ range ∈ found, range.2 - range.1 ≤ n) ∧
        ∀ range ∈ found.dropLast, range.2 - range.1 = min n length := by
  refine ⟨wordRanges?_eq_none_iff length size, fun found hfound => ?_⟩
  obtain rfl := eq_ranges_of_wordRanges? hfound
  refine ⟨ranges_ne_nil length size, tiles_ranges length size,
    fun hlength range hrange => lt_of_mem_ranges hlength hrange, fun n hsize hpos => ?_⟩
  subst hsize
  exact ⟨fun range hrange => width_le_of_mem_ranges hpos hrange,
    fun range hrange => width_of_mem_dropLast_ranges hpos hrange⟩

/-- The length and the size are words, and so are the ends of both ranges, but the sum that is
formed for the second one is not. -/
theorem last_sum_overflows :
    let length := twoTo 64 - 1
    let size := twoTo 63
    length < twoTo 64 ∧ 0 < size ∧ size < twoTo 64 ∧
      ranges length (some size) = [(0, size), (size, length)] ∧
      wordRanges? length (some size) = none := by
  decide +kernel

end Traceability.Matrix
