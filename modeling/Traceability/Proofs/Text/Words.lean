import Traceability.Proofs.Text.Lines

/-!
The words of a text are its longest runs of characters that are not blank. Reading goes on behind
a blank as if the text started there, so words that are joined by spaces are read back.
-/

namespace Traceability.Text

structure IsWord (word : List Char) : Prop where
  ne_nil : word ≠ []
  not_blank : ∀ c ∈ word, isBlank c = false

/-- The words that a text consists of besides its blanks. Behind a word the text is at its end or
goes on with a blank. -/
inductive HasWords : List Char → List (List Char) → Prop where
  | nil : HasWords [] []
  | blank {c : Char} {s : List Char} {ws : List (List Char)} (hc : isBlank c = true)
      (h : HasWords s ws) : HasWords (c :: s) ws
  | word {w s : List Char} {ws : List (List Char)} (hw : IsWord w)
      (hend : ∀ c ∈ s.head?, isBlank c = true) (h : HasWords s ws) : HasWords (w ++ s) (w :: ws)

theorem IsWord.singleton {c : Char} (h : isBlank c = false) : IsWord [c] :=
  ⟨List.cons_ne_nil c [], List.forall_mem_singleton.mpr h⟩

theorem IsWord.cons {c : Char} {w : List Char} (h : isBlank c = false) (hw : IsWord w) :
    IsWord (c :: w) :=
  ⟨List.cons_ne_nil c w, List.forall_mem_cons.mpr ⟨h, hw.not_blank⟩⟩

theorem isWord_of_mem_words {s w : List Char} (h : w ∈ words s) : IsWord w := by
  obtain ⟨hpiece, hne⟩ := List.mem_filter.mp h
  exact ⟨by simpa using hne, notMem_of_mem_split hpiece⟩

theorem words_of_isWord {w : List Char} (h : IsWord w) : words w = [w] := by
  rw [words, split_piece h.not_blank]
  simp [h.ne_nil]

theorem words_append_blank {c : Char} (hc : isBlank c = true) (s t : List Char) :
    words (s ++ c :: t) = words s ++ words t := by
  rw [words, split_append_separator hc, List.filter_append, ← words, ← words]

theorem words_blank_cons {c : Char} (hc : isBlank c = true) (s : List Char) :
    words (c :: s) = words s :=
  words_append_blank hc [] s

theorem words_append_space (s t : List Char) : words (s ++ ' ' :: t) = words s ++ words t :=
  words_append_blank rfl s t

theorem words_append_of_isWord {w s : List Char} (hw : IsWord w)
    (hend : ∀ c ∈ s.head?, isBlank c = true) : words (w ++ s) = w :: words s := by
  cases s with
  | nil =>
    rw [List.append_nil, words_of_isWord hw]
    rfl
  | cons c s =>
    have hc : isBlank c = true := hend c rfl
    rw [words_append_blank hc, words_of_isWord hw, words_blank_cons hc, List.singleton_append]

/-- A character that is no blank makes the first word longer, or is a word of its own. -/
theorem HasWords.exists_cons {c : Char} {s : List Char} {ws : List (List Char)}
    (h : HasWords s ws) : ∃ ws', HasWords (c :: s) ws' := by
  cases hc : isBlank c with
  | true => exact ⟨ws, .blank hc h⟩
  | false =>
    cases h with
    | nil => exact ⟨_, .word (.singleton hc) (by simp) .nil⟩
    | blank hb h => exact ⟨_, .word (.singleton hc) (by simpa using hb) (.blank hb h)⟩
    | word hw hend h => exact ⟨_, .word (hw.cons hc) hend h⟩

theorem exists_hasWords (s : List Char) : ∃ ws, HasWords s ws := by
  induction s with
  | nil => exact ⟨[], .nil⟩
  | cons c s ih =>
    obtain ⟨ws, h⟩ := ih
    exact h.exists_cons

theorem words_eq_of_hasWords {s : List Char} {ws : List (List Char)} (h : HasWords s ws) :
    words s = ws := by
  induction h with
  | nil => rfl
  | blank hc _ ih => rw [words_blank_cons hc, ih]
  | word hw hend _ ih => rw [words_append_of_isWord hw hend, ih]

theorem words_eq_iff {s : List Char} {ws : List (List Char)} : words s = ws ↔ HasWords s ws := by
  refine ⟨fun h => ?_, words_eq_of_hasWords⟩
  obtain ⟨ws', h'⟩ := exists_hasWords s
  rw [← h, words_eq_of_hasWords h']
  exact h'

end Traceability.Text
