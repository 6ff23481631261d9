import Traceability.Proofs.Text.Joined

/-!
The lines of a text that is written line by line are the lines that were written, as long as
none of them contains a line feed or ends with a carriage return.
-/

namespace Traceability.Text

/-- Every line with a line feed behind it. -/
def unlines (lines : List (List Char)) : List Char := lines.flatMap (· ++ ['\n'])

theorem unlines_cons (line : List Char) (lines : List (List Char)) :
    unlines (line :: lines) = line ++ '\n' :: unlines lines := by
  simp [unlines]

theorem split_ne_nil (separates : Char → Bool) (s : List Char) : split separates s ≠ [] := by
  cases s with
  | nil => simp [split]
  | cons c s =>
    rw [split]
    split
    · simp
    · split <;> simp

theorem notMem_of_mem_split {separates : Char → Bool} {s piece : List Char}
    (h : piece ∈ split separates s) : ∀ c ∈ piece, separates c = false := by
  induction s generalizing piece with
  | nil =>
    rw [split, List.mem_singleton] at h
    simp [h]
  | cons c s ih =>
    rw [split] at h
    split at h
    · rw [List.mem_cons] at h
      rcases h with rfl | h
      · simp
      · exact ih h
    · rename_i hc
      rw [Bool.not_eq_true] at hc
      split at h
      · rename_i hnil
        exact absurd hnil (split_ne_nil separates s)
      · rename_i first pieces hpieces
        rw [hpieces] at ih
        rw [List.mem_cons] at h
        rcases h with rfl | h
        · rw [List.forall_mem_cons]
          exact ⟨hc, ih List.mem_cons_self⟩
        · exact ih (List.mem_cons_of_mem _ h)

/-- A separator ends a piece, and a cut goes on behind it as if the text started there. -/
theorem split_append_separator {separates : Char → Bool} {c : Char} (hc : separates c = true)
    (s t : List Char) : split separates (s ++ c :: t) = split separates s ++ split separates t := by
  induction s with
  | nil => simp [split, hc]
  | cons x s ih =>
    rw [List.cons_append, split, split]
    split
    · rw [ih, List.cons_append]
    · obtain ⟨piece, pieces, hpieces⟩ := List.exists_cons_of_ne_nil (split_ne_nil separates s)
      rw [ih, hpieces]
      rfl

/-- A text has one piece more than separators. -/
theorem length_split (separates : Char → Bool) (s : List Char) :
    (split separates s).length = s.countP separates + 1 := by
  induction s with
  | nil => rfl
  | cons c s ih =>
    rw [split]
    split
    · rename_i hc
      rw [List.length_cons, ih, List.countP_cons_of_pos hc]
    · rename_i hc
      obtain ⟨piece, pieces, hpieces⟩ := List.exists_cons_of_ne_nil (split_ne_nil separates s)
      rw [List.countP_cons_of_neg hc, ← ih, hpieces]
      rfl

theorem dropReturn_cases (line : List Char) :
    dropReturn line = line ∨ line = dropReturn line ++ ['\r'] := by
  unfold dropReturn
  split
  · rename_i hlast
    obtain ⟨front, rfl⟩ := List.getLast?_eq_some_iff.mp (beq_iff_eq.mp hlast)
    exact Or.inr (by rw [List.dropLast_concat])
  · exact Or.inl rfl

theorem mem_of_mem_dropReturn {line : List Char} {c : Char} (h : c ∈ dropReturn line) :
    c ∈ line := by
  unfold dropReturn at h
  split at h
  · exact List.dropLast_subset _ h
  · exact h

theorem mem_of_mem_terminated {pieces : List (List Char)} {line : List Char}
    (h : line ∈ terminated pieces) : ∃ piece ∈ pieces, ∀ c ∈ line, c ∈ piece := by
  fun_induction terminated pieces with
  | case1 => exact absurd h List.not_mem_nil
  | case2 last hlast => exact absurd h List.not_mem_nil
  | case3 last hlast =>
    rw [List.mem_singleton] at h
    exact ⟨last, List.mem_cons_self, fun c hc => h ▸ hc⟩
  | case4 first next rest ih =>
    rw [List.mem_cons] at h
    rcases h with rfl | h
    · exact ⟨first, List.mem_cons_self, fun c hc => mem_of_mem_dropReturn hc⟩
    · obtain ⟨piece, hpiece, hmem⟩ := ih h
      exact ⟨piece, List.mem_cons_of_mem _ hpiece, hmem⟩

/-- No line contains a line feed. -/
theorem lineFeed_notMem {s line : List Char} (h : line ∈ lines s) : '\n' ∉ line := by
  intro hmem
  obtain ⟨piece, hpiece, hsub⟩ := mem_of_mem_terminated h
  have hnot := notMem_of_mem_split hpiece '\n' (hsub _ hmem)
  contradiction

theorem lines_cons {line : List Char} (hfeed : '\n' ∉ line) (hreturn : line.getLast? ≠ some '\r')
    (rest : List Char) : lines (line ++ '\n' :: rest) = line :: lines rest := by
  have hpiece : ∀ c ∈ line, (c == '\n') = false := by
    intro c hc
    rw [beq_eq_false_iff_ne]
    intro heq
    exact hfeed (heq ▸ hc)
  have hdrop : dropReturn line = line := if_neg (by simpa using hreturn)
  rw [lines, split_append hpiece rfl]
  obtain ⟨next, pieces, hpieces⟩ :=
    List.exists_cons_of_ne_nil (split_ne_nil (· == '\n') rest)
  rw [lines, hpieces, terminated, hdrop]

theorem lines_unlines {written : List (List Char)}
    (h : ∀ line ∈ written, '\n' ∉ line ∧ line.getLast? ≠ some '\r') :
    lines (unlines written) = written := by
  induction written with
  | nil => rfl
  | cons line written ih =>
    rw [List.forall_mem_cons] at h
    rw [unlines_cons, lines_cons h.1.1 h.1.2, ih h.2]

/-- There is one line feed for each line, unless a line contains one. -/
theorem count_unlines_eq_length_iff {written : List (List Char)} :
    (unlines written).count '\n' = written.length ↔ ∀ line ∈ written, '\n' ∉ line := by
  have hcount : (unlines written).count '\n' =
      (written.map (List.count '\n')).sum + written.length := by
    induction written with
    | nil => rfl
    | cons line written ih =>
      rw [unlines_cons, List.count_append, List.count_cons_self, ih, List.map_cons, List.sum_cons,
        List.length_cons, Nat.add_assoc, Nat.add_assoc]
  rw [hcount, Nat.add_eq_right, List.sum_eq_zero_iff_forall_eq_nat, List.forall_mem_map]
  simp only [List.count_eq_zero]

theorem count_unlines {written : List (List Char)} (h : ∀ line ∈ written, '\n' ∉ line) :
    (unlines written).count '\n' = written.length := count_unlines_eq_length_iff.mpr h

end Traceability.Text
