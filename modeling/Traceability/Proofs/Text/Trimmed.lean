import Traceability.Text.Blank

/-!
Trimming takes the blanks away at both ends of a text, and nothing else. A text is trimmed
exactly if it neither starts nor ends with a blank.
-/

namespace Traceability.Text

theorem isBlank_of_mem_takeWhile {s : List Char} {c : Char} (h : c ∈ s.takeWhile isBlank) :
    isBlank c = true := List.all_eq_true.mp List.all_takeWhile c h

theorem exists_trimStart (s : List Char) :
    ∃ lead, s = lead ++ trimStart s ∧ ∀ c ∈ lead, isBlank c = true :=
  ⟨s.takeWhile isBlank, List.takeWhile_append_dropWhile.symm,
    fun _ => isBlank_of_mem_takeWhile⟩

theorem exists_trimEnd (s : List Char) :
    ∃ trail, s = trimEnd s ++ trail ∧ ∀ c ∈ trail, isBlank c = true := by
  obtain ⟨lead, hlead, hblank⟩ := exists_trimStart s.reverse
  refine ⟨lead.reverse, ?_, fun c hc => hblank c (List.mem_reverse.mp hc)⟩
  rw [trimEnd, ← trimStart, ← List.reverse_append, ← hlead, List.reverse_reverse]

/-- A text consists of blanks, the trimmed text and blanks. -/
theorem exists_trim (s : List Char) :
    ∃ lead trail, s = lead ++ trim s ++ trail ∧ (∀ c ∈ lead, isBlank c = true) ∧
      ∀ c ∈ trail, isBlank c = true := by
  obtain ⟨lead, hstart, hlead⟩ := exists_trimStart s
  obtain ⟨trail, hend, htrail⟩ := exists_trimEnd (trimStart s)
  refine ⟨lead, trail, ?_, hlead, htrail⟩
  rw [List.append_assoc, trim, ← hend]
  exact hstart

theorem mem_of_mem_trim {s : List Char} {c : Char} (h : c ∈ trim s) : c ∈ s := by
  obtain ⟨lead, trail, hsplit, -⟩ := exists_trim s
  rw [hsplit]
  simp [h]

section Ends

variable {s : List Char}

theorem trimStart_of_head? (h : ∀ c ∈ s.head?, isBlank c = false) : trimStart s = s := by
  cases s with
  | nil => rfl
  | cons c s => exact List.dropWhile_cons_of_neg (by simp [h c rfl])

theorem trimEnd_of_getLast? (h : ∀ c ∈ s.getLast?, isBlank c = false) : trimEnd s = s := by
  rw [← List.head?_reverse] at h
  have hreverse := trimStart_of_head? h
  rw [trimStart] at hreverse
  rw [trimEnd, hreverse, List.reverse_reverse]

theorem trim_of_ends (hhead : ∀ c ∈ s.head?, isBlank c = false)
    (hlast : ∀ c ∈ s.getLast?, isBlank c = false) : trim s = s := by
  rw [trim, trimStart_of_head? hhead, trimEnd_of_getLast? hlast]

theorem head?_trimStart (s : List Char) : ∀ c ∈ (trimStart s).head?, isBlank c = false := by
  intro c hc
  have hnot := List.head?_dropWhile_not isBlank s
  rw [← trimStart, Option.mem_def.mp hc] at hnot
  exact hnot

theorem getLast?_trimEnd (s : List Char) : ∀ c ∈ (trimEnd s).getLast?, isBlank c = false := by
  rw [trimEnd, List.getLast?_reverse]
  exact head?_trimStart s.reverse

theorem head?_trim (s : List Char) : ∀ c ∈ (trim s).head?, isBlank c = false := by
  intro c hc
  obtain ⟨trail, hend, -⟩ := exists_trimEnd (trimStart s)
  apply head?_trimStart s
  rw [hend, ← trim, List.head?_append, Option.mem_def.mp hc]
  rfl

theorem getLast?_trim (s : List Char) : ∀ c ∈ (trim s).getLast?, isBlank c = false :=
  getLast?_trimEnd (trimStart s)

theorem trim_trim (s : List Char) : trim (trim s) = trim s :=
  trim_of_ends (head?_trim s) (getLast?_trim s)

theorem trim_append_of_blank {lead : List Char} (hlead : ∀ c ∈ lead, isBlank c = true)
    (s : List Char) : trim (lead ++ s) = trim s := by
  rw [trim, trimStart, List.dropWhile_append_of_pos hlead, ← trimStart, trim]

theorem trim_space_cons (s : List Char) : trim (' ' :: s) = trim s := by
  have hblank : ∀ c ∈ [' '], isBlank c = true := List.forall_mem_singleton.mpr rfl
  rw [← List.singleton_append, trim_append_of_blank hblank]

theorem trim_eq_nil_iff : trim s = [] ↔ s.all isBlank = true := by
  rw [List.all_eq_true]
  constructor
  · intro h
    obtain ⟨lead, trail, hsplit, hlead, htrail⟩ := exists_trim s
    rw [hsplit, h, List.append_nil, List.forall_mem_append]
    exact ⟨hlead, htrail⟩
  · intro h
    have hnil := trim_append_of_blank h []
    rwa [List.append_nil] at hnil

end Ends

section Behind

variable {s t : List Char}

theorem dropWhile_append_of_ne_nil {p : Char → Bool} (h : s.dropWhile p ≠ []) (t : List Char) :
    (s ++ t).dropWhile p = s.dropWhile p ++ t := by
  rw [List.dropWhile_append, if_neg (by simpa using h)]

theorem takeWhile_append_of_ne_nil {p : Char → Bool} (h : s.dropWhile p ≠ []) (t : List Char) :
    (s ++ t).takeWhile p = s.takeWhile p := by
  have hsplit := congrArg List.length (@List.takeWhile_append_dropWhile _ p s)
  have hpos := List.length_pos_iff.mpr h
  rw [List.length_append] at hsplit
  rw [List.takeWhile_append, if_neg (by omega)]

theorem trimStart_eq_nil_iff : trimStart s = [] ↔ s.all isBlank = true := by
  constructor
  · intro h
    obtain ⟨lead, hlead, hblank⟩ := exists_trimStart s
    rw [hlead, h, List.append_nil]
    exact List.all_eq_true.mpr hblank
  · intro h
    rw [trimStart, ← List.append_nil s, List.dropWhile_append_of_pos (List.all_eq_true.mp h)]
    rfl

theorem trimStart_ne_nil (h : s.all isBlank = false) : trimStart s ≠ [] := by
  rw [Ne, trimStart_eq_nil_iff, h]
  simp

/-- Whatever stands behind a text that is not blank, the blanks before it are the same. -/
theorem trimStart_append (h : s.all isBlank = false) (t : List Char) :
    trimStart (s ++ t) = trimStart s ++ t :=
  dropWhile_append_of_ne_nil (trimStart_ne_nil h) t

theorem takeWhile_isBlank_append (h : s.all isBlank = false) (t : List Char) :
    (s ++ t).takeWhile isBlank = s.takeWhile isBlank :=
  takeWhile_append_of_ne_nil (trimStart_ne_nil h) t

theorem trimEnd_append_blank (s : List Char) (ht : ∀ c ∈ t, isBlank c = true) :
    trimEnd (s ++ t) = trimEnd s := by
  unfold trimEnd
  rw [List.reverse_append, List.dropWhile_append_of_pos fun c hc => ht c (List.mem_reverse.mp hc)]

theorem trim_append_blank (s : List Char) (ht : ∀ c ∈ t, isBlank c = true) :
    trim (s ++ t) = trim s := by
  cases hs : s.all isBlank with
  | true =>
    rw [trim_append_of_blank (List.all_eq_true.mp hs), trim_eq_nil_iff.mpr hs, trim_eq_nil_iff,
      List.all_eq_true]
    exact ht
  | false => rw [trim, trimStart_append hs, trimEnd_append_blank _ ht, trim]

end Behind

end Traceability.Text
