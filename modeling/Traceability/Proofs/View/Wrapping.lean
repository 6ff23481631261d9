import Mathlib.Data.List.Chain
import Traceability.View.Dot
import Traceability.Proofs.Text.Words

/-!
Labels are wrapped greedily. The words of a text stand in lines, in order and with single spaces
between them, and a line ends only where the next word does not fit or none is left. There is
exactly one way to do so.
-/

namespace Traceability.View.Dot

open Text

/-- Words with single spaces between them that fit the width, or a single word. -/
structure IsLine (width : Nat) (line : List Char) : Prop where
  ne_nil : line ≠ []
  spaced : line = join [' '] (words line)
  fits : line.length ≤ width ∨ IsWord line

/-- Lines in which each has as many of the words as fit the width, but at least one. -/
structure IsGreedy (width : Nat) (ws : List (List Char)) (lines : List (List Char)) : Prop where
  words_eq : lines.flatMap words = ws
  isLine : ∀ line ∈ lines, IsLine width line
  full : lines.IsChain fun line next =>
    ∀ word ∈ (words next).head?, width < (line ++ ' ' :: word).length

variable {width : Nat} {ws : List (List Char)}

section Filling

theorem IsLine.words_ne_nil {line : List Char} (h : IsLine width line) : words line ≠ [] := by
  intro hnil
  have hspaced := h.spaced
  rw [hnil] at hspaced
  exact h.ne_nil hspaced

theorem words_append_word {word : List Char} (h : IsWord word) (line : List Char) :
    words (line ++ ' ' :: word) = words line ++ [word] := by
  rw [words_append_space, words_of_isWord h]

theorem isLine_of_isWord {word : List Char} (h : IsWord word) : IsLine width word where
  ne_nil := h.ne_nil
  spaced := by rw [words_of_isWord h, join]
  fits := Or.inr h

theorem IsLine.append {line word : List Char} (h : IsLine width line) (hword : IsWord word)
    (hfits : (line ++ ' ' :: word).length ≤ width) : IsLine width (line ++ ' ' :: word) where
  ne_nil := List.append_ne_nil_of_right_ne_nil line (List.cons_ne_nil ' ' word)
  spaced := by
    rw [words_append_word hword, join_append h.words_ne_nil, ← h.spaced, List.flatMap_singleton,
      List.singleton_append]
  fits := Or.inl hfits

/-- The line that is being filled keeps its first word. -/
theorem head?_words_of_mem_head?_fill {line first : List Char} (h : words line ≠ [])
    (hws : ∀ w ∈ ws, IsWord w) (hfirst : first ∈ (fill width line ws).head?) :
    (words first).head? = (words line).head? := by
  induction ws generalizing line with
  | nil =>
    rw [fill, List.head?_cons, Option.mem_some_iff] at hfirst
    rw [hfirst]
  | cons word ws ih =>
    rw [List.forall_mem_cons] at hws
    rw [fill] at hfirst
    split at hfirst
    · have happend := words_append_word hws.1 line
      have hne : words (line ++ ' ' :: word) ≠ [] := by simp [happend]
      rw [ih hne hws.2 hfirst, happend, List.head?_append_of_ne_nil _ h]
    · rw [List.head?_cons, Option.mem_some_iff] at hfirst
      rw [hfirst]

/-- What is filled from a line on is greedy. On the way through the words the line that is being
filled stays a line. -/
theorem fill_isGreedy {line : List Char} (h : IsLine width line) (hws : ∀ w ∈ ws, IsWord w) :
    IsGreedy width (words line ++ ws) (fill width line ws) := by
  induction ws generalizing line with
  | nil =>
    exact
      { words_eq := List.flatMap_cons
        isLine := List.forall_mem_singleton.mpr h
        full := List.isChain_singleton line }
  | cons word ws ih =>
    obtain ⟨hword, hws⟩ := List.forall_mem_cons.mp hws
    rw [fill]
    split
    · rename_i hfits
      have hlength : (line ++ ' ' :: word).length ≤ width := by
        rw [List.length_append, List.length_cons]
        omega
      have hgreedy := ih (h.append hword hlength) hws
      rwa [words_append_word hword, List.append_assoc, List.singleton_append] at hgreedy
    · rename_i hfull
      have hgreedy := ih (isLine_of_isWord hword) hws
      have hfirst : words word = [word] := words_of_isWord hword
      rw [hfirst] at hgreedy
      exact
        { words_eq := by rw [List.flatMap_cons, hgreedy.words_eq, List.singleton_append]
          isLine := List.forall_mem_cons.mpr ⟨h, hgreedy.isLine⟩
          full := by
            -- the next line starts with the word that did not fit
            refine List.isChain_cons.mpr ⟨fun next hnext w hw => ?_, hgreedy.full⟩
            have hhead := head?_words_of_mem_head?_fill (by simp [hfirst]) hws hnext
            rw [hhead, hfirst, List.head?_cons, Option.mem_some_iff] at hw
            rw [← hw, List.length_append, List.length_cons]
            omega }

theorem wrap_isGreedy (width : Nat) (text : List Char) :
    IsGreedy width (words text) (wrap width text) := by
  have hwords : ∀ w ∈ words text, IsWord w := fun w => isWord_of_mem_words
  unfold wrap
  split
  · rename_i hnil
    rw [hnil]
    exact ⟨rfl, by simp, List.isChain_nil⟩
  · rename_i word rest hcons
    rw [hcons, List.forall_mem_cons] at hwords
    have hline : IsLine width word := isLine_of_isWord hwords.1
    have hgreedy := fill_isGreedy hline hwords.2
    rw [words_of_isWord hwords.1] at hgreedy
    rwa [hcons]

end Filling

section Uniqueness

variable {line line' : List Char} {lines lines' : List (List Char)}

theorem IsGreedy.tail (h : IsGreedy width ws (line :: lines)) :
    IsGreedy width (lines.flatMap words) lines where
  words_eq := rfl
  isLine := (List.forall_mem_cons.mp h.isLine).2
  full := (List.isChain_cons.mp h.full).2

theorem IsGreedy.head (h : IsGreedy width ws (line :: lines)) : IsLine width line :=
  h.isLine line List.mem_cons_self

theorem IsGreedy.eq_nil (h : IsGreedy width [] lines) : lines = [] := by
  rw [List.eq_nil_iff_forall_not_mem]
  intro line hline
  exact (h.isLine line hline).words_ne_nil (List.flatMap_eq_nil_iff.mp h.words_eq line hline)

/-- Where one line has taken all words of another one, it has taken no more: the first further
word would not have fitted. -/
theorem IsGreedy.no_more (h : IsGreedy width ws (line :: lines))
    (h' : IsGreedy width ws (line' :: lines')) {more : List (List Char)}
    (hmore : words line' = words line ++ more) : more = [] := by
  cases more with
  | nil => rfl
  | cons word more =>
    exfalso
    have hne := h.head.words_ne_nil
    have hrest : lines.flatMap words = word :: (more ++ lines'.flatMap words) := by
      have heq := h.words_eq.trans h'.words_eq.symm
      rw [List.flatMap_cons, List.flatMap_cons, hmore, List.append_assoc] at heq
      exact List.append_cancel_left heq
    have hwide : width < (line ++ ' ' :: word).length := by
      cases lines with
      | nil => contradiction
      | cons next rest =>
        refine (List.isChain_cons_cons.mp h.full).1 word ?_
        rw [Option.mem_def, ← List.head?_append_of_ne_nil _ h.tail.head.words_ne_nil,
          ← List.flatMap_cons, hrest, List.head?_cons]
    have hlong : (line ++ ' ' :: word).length ≤ line'.length := by
      rw [h'.head.spaced, hmore, join_append hne, ← h.head.spaced, List.flatMap_cons]
      simp
    -- the longer line has at least two words, so it is not excused for its width
    rcases h'.head.fits with hfits | hword
    · omega
    · have hsingle := congrArg List.length hmore
      have hpos := List.length_pos_iff.mpr hne
      rw [words_of_isWord hword, List.length_append, List.length_singleton,
        List.length_cons] at hsingle
      omega

theorem IsGreedy.unique (h : IsGreedy width ws lines) (h' : IsGreedy width ws lines') :
    lines = lines' := by
  induction lines generalizing ws lines' with
  | nil =>
    rw [← h.words_eq] at h'
    exact h'.eq_nil.symm
  | cons line lines ih =>
    cases lines' with
    | nil =>
      rw [← h'.words_eq] at h
      exact h.eq_nil
    | cons line' lines' =>
      have heq := h.words_eq.trans h'.words_eq.symm
      rw [List.flatMap_cons, List.flatMap_cons] at heq
      have hwords : words line = words line' := by
        rcases List.append_eq_append_iff.mp heq with ⟨more, hmore, -⟩ | ⟨more, hmore, -⟩
        · rw [hmore, h.no_more h' hmore, List.append_nil]
        · rw [hmore, h'.no_more h hmore, List.append_nil]
      have hline : line = line' := by
        rw [h.head.spaced, hwords, ← h'.head.spaced]
      rw [hwords] at heq
      have htail := h'.tail
      rw [← List.append_cancel_left heq] at htail
      rw [hline, ih h.tail htail]

end Uniqueness

/-- The lines of a wrapped text have all of its words, in order and unbroken, with single spaces
between them. No line is empty, every line fits the width or is a single word, and to none the
first word of the next line could have been added. They are the only lines of this kind. -/
theorem wrap_eq_iff_isGreedy (width : Nat) (text : List Char) (lines : List (List Char)) :
    wrap width text = lines ↔ ∃ ws, HasWords text ws ∧ IsGreedy width ws lines := by
  constructor
  · rintro rfl
    exact ⟨words text, words_eq_iff.mp rfl, wrap_isGreedy width text⟩
  · rintro ⟨ws, hwords, hgreedy⟩
    rw [← words_eq_iff.mpr hwords] at hgreedy
    exact (wrap_isGreedy width text).unique hgreedy

/-- Lengths are counted in characters, and a word that is too long stands alone. -/
example :
    wrap 5 "  ää öö\u00A0ü extraordinary a".toList =
      ["ää öö".toList, "ü".toList, "extraordinary".toList, "a".toList] := by
  decide +kernel

end Traceability.View.Dot
