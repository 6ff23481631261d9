import Traceability.Proofs.Filter.Truncation

/-!
A text that is scanned is its tokens in order, with blanks between and around them. The
characters of a token give that token by themselves, and a blank behind them does not change
it. So the blanks of a text can be chosen anew: as long as there are some between each token
and the next, the text has the same tokens.
-/

namespace Traceability.Filter

open Text

/-- Blanks that part tokens and do not separate filters. -/
def IsGap (gap : List Char) : Prop := ∀ c ∈ gap, isBlank c = true ∧ c ≠ '\n'

instance : DecidablePred IsGap := fun gap => List.decidableBAll _ gap

/-- A token is scanned from its characters alone, wherever they are. -/
def Lexeme.StandsAlone (l : Lexeme) : Prop :=
  ∀ offset, scan offset l.characters = .ok [{ l with offset }]

/-- What a token is, regardless of its place. -/
def Lexeme.shape (l : Lexeme) : Token × List Char := (l.token, l.characters)

/-- A text from a place on is parted into these tokens: each stands at its offset, and what is
between them, before the first and behind the last is a gap. -/
inductive Parted : Nat → List Char → List Lexeme → Prop
  | gap {offset : Nat} {gap : List Char} (hgap : IsGap gap) : Parted offset gap []
  | token {offset : Nat} {gap rest : List Char} {l : Lexeme} {tokens : List Lexeme}
      (hgap : IsGap gap) (hoffset : l.offset = offset + byteLength gap)
      (hne : l.characters ≠ []) (halone : l.StandsAlone)
      (hrest : Parted (l.offset + byteLength l.characters) rest tokens) :
      Parted offset (gap ++ l.characters ++ rest) (l :: tokens)

/-- The characters of the tokens, each behind a gap. -/
def spread (gaps : List (List Char)) (tokens : List Lexeme) : List Char :=
  (List.zipWith (fun gap l => gap ++ l.characters) gaps tokens).flatten

section Gaps

variable {c : Char} {gap : List Char}

theorem isGap_nil : IsGap [] := fun _ hc => absurd hc List.not_mem_nil

theorem isGap_cons : IsGap (c :: gap) ↔ (isBlank c = true ∧ c ≠ '\n') ∧ IsGap gap :=
  List.forall_mem_cons

theorem isSeparator_of_isBlank (hb : isBlank c = true) (hfeed : c ≠ '\n') :
    isSeparator c = false := by
  have hsemicolon : c ≠ ';' := ne_of_isBlank hb rfl
  simp [isSeparator, hfeed, hsemicolon]

theorem ne_of_isSeparator (hc : isSeparator c = false) : c ≠ '\n' := by
  rintro rfl
  contradiction

theorem scan_gap (hgap : IsGap gap) (offset : Nat) (s : List Char) :
    scan offset (gap ++ s) = scan (offset + byteLength gap) s := by
  induction gap generalizing offset with
  | nil => rfl
  | cons c gap ih =>
    obtain ⟨⟨hb, hfeed⟩, hgap⟩ := isGap_cons.mp hgap
    rw [List.cons_append, scan_blank (isSeparator_of_isBlank hb hfeed) hb, ih hgap, byteLength,
      Nat.add_assoc]

theorem isBlank_head_gap (hgap : IsGap gap) : ∀ b ∈ gap.head?, isBlank b = true :=
  fun b hb => (hgap b (List.mem_of_mem_head? hb)).1

end Gaps

section Parting

variable {offset : Nat} {s : List Char} {tokens : List Lexeme}

theorem Parted.cons {l : Lexeme} (hne : l.characters ≠ []) (halone : l.StandsAlone)
    (h : Parted (l.offset + byteLength l.characters) s tokens) :
    Parted l.offset (l.characters ++ s) (l :: tokens) :=
  .token isGap_nil rfl hne halone h

/-- The first gap grows by a blank in front of it. -/
theorem Parted.blank {c : Char} (hb : isBlank c = true) (hfeed : c ≠ '\n')
    (h : Parted (offset + c.utf8Size) s tokens) : Parted offset (c :: s) tokens := by
  cases h with
  | gap hgap => exact .gap (isGap_cons.mpr ⟨⟨hb, hfeed⟩, hgap⟩)
  | @token _ gap rest l tokens hgap hoffset hne halone hrest =>
    rw [← List.cons_append, ← List.cons_append]
    refine .token (isGap_cons.mpr ⟨⟨hb, hfeed⟩, hgap⟩) ?_ hne halone hrest
    rw [hoffset, byteLength, Nat.add_assoc]

theorem standsAlone_separator {c : Char} (hc : isSeparator c = true) (offset : Nat) :
    Lexeme.StandsAlone ⟨.separator, offset, [c]⟩ := by
  intro place
  rw [scan_separator hc, scan_nil]
  rfl

theorem standsAlone_token {c : Char} {rest : List Char} {token : Token} {extra : Nat}
    (hc : isSeparator c = false) (hb : isBlank c = false)
    (hnext : nextToken c rest = .ok (token, extra)) (offset : Nat) :
    Lexeme.StandsAlone ⟨token, offset, c :: rest.take extra⟩ := by
  intro place
  have hlength : (rest.take extra).length = extra :=
    List.length_take_of_le (length_le_of_nextToken hnext)
  have halone := nextToken_of_prefix (List.take_prefix extra rest) (Nat.le_of_eq hlength.symm) hnext
  rw [scan_token hc hb halone, List.take_take, Nat.min_self,
    List.drop_eq_nil_of_le (Nat.le_of_eq hlength), scan_nil]
  rfl

theorem parted_of_ok (h : scan offset s = .ok tokens) : Parted offset s tokens := by
  induction offset, s using scan_induction generalizing tokens with
  | nil offset =>
    rw [scan_nil] at h
    cases h
    exact .gap isGap_nil
  | separator offset c rest hc ih =>
    rw [scan_separator hc] at h
    obtain ⟨behind, hrest, rfl⟩ := exists_of_map_eq_ok h
    have hparted := ih hrest
    rw [← utf8Size_of_isSeparator hc] at hparted
    exact .cons (List.cons_ne_nil c []) (standsAlone_separator hc offset) hparted
  | blank offset c rest hc hb ih =>
    rw [scan_blank hc hb] at h
    exact (ih h).blank hb (ne_of_isSeparator hc)
  | fault offset c rest found hc hb hnext =>
    rw [scan_fault hc hb hnext] at h
    contradiction
  | token offset c rest found extra hc hb hnext ih =>
    rw [scan_token hc hb hnext] at h
    obtain ⟨behind, hrest, rfl⟩ := exists_of_map_eq_ok h
    have hparted := Parted.cons (List.cons_ne_nil c (rest.take extra))
      (standsAlone_token hc hb hnext offset) (ih hrest)
    rwa [List.cons_append, List.take_append_drop] at hparted

theorem Parted.standsAlone (h : Parted offset s tokens) : ∀ l ∈ tokens, l.StandsAlone := by
  induction h with
  | gap hgap => simp
  | token hgap hoffset hne halone hrest ih => exact List.forall_mem_cons.mpr ⟨halone, ih⟩

/-- Each token is the slice of the text at its offset. -/
theorem Parted.exists_slice (h : Parted offset s tokens) {l : Lexeme} (hl : l ∈ tokens) :
    ∃ front behind, s = front ++ l.characters ++ behind ∧
      l.offset = offset + byteLength front := by
  induction h with
  | gap hgap => contradiction
  | @token offset gap rest first tokens hgap hoffset hne halone hrest ih =>
    rcases List.mem_cons.mp hl with rfl | hl
    · exact ⟨gap, rest, rfl, hoffset⟩
    · obtain ⟨front, behind, rfl, hplace⟩ := ih hl
      refine ⟨gap ++ first.characters ++ front, behind, ?_, ?_⟩
      · simp only [List.append_assoc]
      · rw [hplace, hoffset, byteLength_append, byteLength_append]
        omega

/-- The tokens are in order, and none starts before the one in front of it ends. -/
theorem Parted.pairwise (h : Parted offset s tokens) :
    tokens.Pairwise fun l l' => l.offset + byteLength l.characters ≤ l'.offset := by
  induction h with
  | gap hgap => exact .nil
  | token hgap hoffset hne halone hrest ih =>
    refine .cons (fun l' hl' => ?_) ih
    obtain ⟨front, behind, -, hplace⟩ := hrest.exists_slice hl'
    omega

end Parting

section Spreading

variable {tokens : List Lexeme} {gaps : List (List Char)} {last : List Char}

/-- Where tokens or their end follow, a blank comes first. -/
theorem isBlank_head_spread (hgaps : ∀ gap ∈ gaps, IsGap gap) (hne : ∀ gap ∈ gaps, gap ≠ [])
    (hlast : IsGap last) : ∀ b ∈ (spread gaps tokens ++ last).head?, isBlank b = true := by
  cases gaps with
  | nil => exact isBlank_head_gap hlast
  | cons gap gaps =>
    cases tokens with
    | nil => exact isBlank_head_gap hlast
    | cons l tokens =>
      obtain ⟨b, gap, rfl⟩ := List.exists_cons_of_ne_nil (hne gap List.mem_cons_self)
      intro x hx
      cases hx
      exact (isGap_cons.mp (hgaps _ List.mem_cons_self)).1.1

/-- Tokens that stand alone are found again in what they are spread to. -/
theorem scan_spread (halone : ∀ l ∈ tokens, l.StandsAlone) (hlength : gaps.length = tokens.length)
    (hgaps : ∀ gap ∈ gaps, IsGap gap) (hne : ∀ gap ∈ gaps.tail, gap ≠ []) (hlast : IsGap last)
    (offset : Nat) :
    ∃ found, scan offset (spread gaps tokens ++ last) = .ok found ∧
      found.map Lexeme.shape = tokens.map Lexeme.shape := by
  induction tokens generalizing gaps offset with
  | nil =>
    rw [List.length_eq_zero_iff.mp hlength]
    refine ⟨[], ?_, rfl⟩
    have hend := scan_gap hlast offset []
    rwa [List.append_nil, scan_nil] at hend
  | cons l tokens ih =>
    obtain ⟨gap, gaps, rfl⟩ := List.exists_cons_of_length_eq_add_one hlength
    rw [List.forall_mem_cons] at halone hgaps
    rw [List.tail_cons] at hne
    obtain ⟨found, hscan, hshapes⟩ := ih halone.2 (Nat.succ.inj hlength) hgaps.2
      (fun gap hgap => hne gap (List.mem_of_mem_tail hgap))
      (offset + byteLength gap + byteLength l.characters)
    refine ⟨{ l with offset := offset + byteLength gap } :: found, ?_, ?_⟩
    · have hsplit : spread (gap :: gaps) (l :: tokens) ++ last =
          gap ++ (l.characters ++ (spread gaps tokens ++ last)) := by
        simp only [spread, List.zipWith_cons_cons, List.flatten_cons, List.append_assoc]
      rw [hsplit, scan_gap hgaps.1,
        scan_append_of_ok (isBlank_head_spread hgaps.2 hne hlast) (halone.1 _), hscan]
      rfl
    · rw [List.map_cons, List.map_cons, hshapes]
      rfl

end Spreading

/-- The scanner loses nothing and does not depend on the spacing. -/
theorem tokens_part_text {s : List Char} {tokens : List Lexeme} (h : tokenize s = .ok tokens) :
    Parted 0 s tokens ∧
    (∀ l ∈ tokens, ∃ front behind, s = front ++ l.characters ++ behind ∧
      l.offset = byteLength front) ∧
    (tokens.Pairwise fun l l' => l.offset + byteLength l.characters ≤ l'.offset) ∧
    ∀ gaps last, gaps.length = tokens.length → (∀ gap ∈ gaps, IsGap gap) →
      (∀ gap ∈ gaps.tail, gap ≠ []) → IsGap last →
      ∃ found, tokenize (spread gaps tokens ++ last) = .ok found ∧
        found.map Lexeme.shape = tokens.map Lexeme.shape := by
  have hparted := parted_of_ok h
  refine ⟨hparted, fun l hl => ?_, hparted.pairwise, ?_⟩
  · obtain ⟨front, behind, hsplit, hplace⟩ := hparted.exists_slice hl
    exact ⟨front, behind, hsplit, hplace.trans (Nat.zero_add _)⟩
  · intro gaps last hlength hgaps hne hlast
    exact scan_spread hparted.standsAlone hlength hgaps hne hlast 0

/-- Tokens without any gap, which are found again behind blanks of other alphabets. -/
theorem tokens_part_text_of_dense :
    let tokens : List Lexeme := [⟨.identifier "a", 0, ['a']⟩, ⟨.sign .eq, 1, ['=', '=']⟩,
      ⟨.text "ü'", 3, ['"', 'ü', '\'', '"']⟩, ⟨.separator, 8, [';']⟩, ⟨.identifier "b", 9, ['b']⟩,
      ⟨.sign .lt, 10, ['<']⟩, ⟨.number (.ofDecimal false 1 0), 11, ['1']⟩]
    let respaced := "\ta\u2003== \"ü'\"\u00a0;\u3000b <\r1 ".toList
    (tokenize "a==\"ü'\";b<1".toList = .ok tokens ∧
      Parted 0 "a==\"ü'\";b<1".toList tokens ∧
      (tokens.Pairwise fun l l' => l.offset + byteLength l.characters ≤ l'.offset)) ∧
    ∃ found, tokenize respaced = .ok found ∧
      found.map Lexeme.shape = tokens.map Lexeme.shape := by
  intro tokens respaced
  have htokens : tokenize "a==\"ü'\";b<1".toList = .ok tokens := tokenize_eq_ok (by decide +kernel)
  obtain ⟨hparted, -, hpairwise, hspread⟩ := tokens_part_text htokens
  refine ⟨⟨htokens, hparted, hpairwise⟩, ?_⟩
  exact hspread [['\t'], ['\u2003'], [' '], ['\u00a0'], ['\u3000'], [' '], ['\r']] [' '] rfl
    (by decide) (by decide) (by decide)

/-- Without a gap, two tokens can be read as one. -/
example :
    ((tokenize "not in".toList).toOption.map List.length = some 2) ∧
      ((tokenize "notin".toList).toOption.map List.length = some 1) := by
  decide +kernel

end Traceability.Filter
