import Traceability.Proofs.Filter.Scanning

/-!
Texts that are cut off. A token is read off its own characters, so that it is the same wherever
the text ends behind it. Every token of a text, and the place where no token is found, has in
front of it a text that is scanned, and this text has the tokens before that place.
-/

namespace Traceability.Filter

open Text

section Numbers

variable {s t : List Char}

theorem takeWhile_of_prefix {p : Char → Bool} (h : t <+: s)
    (hle : (s.takeWhile p).length ≤ t.length) : t.takeWhile p = s.takeWhile p := by
  obtain ⟨behind, rfl⟩ := h
  rw [List.takeWhile_append] at hle ⊢
  by_cases hall : (t.takeWhile p).length = t.length
  · rw [if_pos hall, List.length_append] at hle
    have hself : t.takeWhile p = t := (List.takeWhile_prefix p).eq_of_length hall
    have hnil : behind.takeWhile p = [] := List.length_eq_zero_iff.mp (by omega)
    rw [if_pos hall, hself, hnil, List.append_nil]
  · rw [if_neg hall]

theorem dropWhile_of_prefix {p : Char → Bool} (h : t <+: s)
    (heq : t.takeWhile p = s.takeWhile p) : t.dropWhile p <+: s.dropWhile p := by
  rw [← List.prefix_append_right_inj (s.takeWhile p), List.takeWhile_append_dropWhile, ← heq,
    List.takeWhile_append_dropWhile]
  exact h

theorem leadingDigits_of_point {rest : List Char} (h : s.dropWhile isDigit = '.' :: rest) :
    leadingDigits s =
      if (s.takeWhile isDigit).isEmpty && (rest.takeWhile isDigit).isEmpty then []
      else s.takeWhile isDigit ++ '.' :: rest.takeWhile isDigit := by
  unfold leadingDigits
  simp only [h]

theorem leadingDigits_of_whole (h : ∀ c ∈ (s.dropWhile isDigit).head?, c ≠ '.') :
    leadingDigits s = s.takeWhile isDigit := by
  unfold leadingDigits
  simp only
  split
  · rename_i rest hrest
    exact absurd rfl (h '.' (by rw [hrest]; rfl))
  · rfl

theorem length_takeWhile_le_leadingDigits (s : List Char) :
    (s.takeWhile isDigit).length ≤ (leadingDigits s).length := by
  unfold leadingDigits
  simp only
  split
  · split
    · rename_i hempty
      rw [Bool.and_eq_true, List.isEmpty_iff] at hempty
      simp [hempty.1]
    · simp
  · exact Nat.le_refl _

theorem leadingDigits_of_prefix (h : t <+: s) (hle : (leadingDigits s).length ≤ t.length) :
    leadingDigits t = leadingDigits s := by
  have hwhole := takeWhile_of_prefix h (Nat.le_trans (length_takeWhile_le_leadingDigits s) hle)
  have hbehind := dropWhile_of_prefix h hwhole
  have hsplit : t = s.takeWhile isDigit ++ t.dropWhile isDigit := by
    rw [← hwhole, List.takeWhile_append_dropWhile]
  have hlengths := congrArg List.length hsplit
  rw [List.length_append] at hlengths
  cases hrest : s.dropWhile isDigit with
  | nil =>
    rw [hrest, List.prefix_nil] at hbehind
    rw [leadingDigits_of_whole (by simp [hbehind]), leadingDigits_of_whole (by simp [hrest]),
      hwhole]
  | cons c rest =>
    rw [hrest, List.prefix_cons_iff] at hbehind
    by_cases hc : c = '.'
    · subst hc
      rw [leadingDigits_of_point hrest] at hle ⊢
      rcases hbehind with hnil | ⟨rest', hrest', hprefix⟩
      · -- The text ends in front of the point, so that the point was no part of the number.
        rw [leadingDigits_of_whole (by simp [hnil]), hwhole]
        rw [hnil, List.length_nil] at hlengths
        split at hle
        · rename_i hempty
          rw [if_pos hempty]
          rw [Bool.and_eq_true, List.isEmpty_iff] at hempty
          exact hempty.1
        · rw [List.length_append, List.length_cons] at hle
          omega
      · rw [hrest', List.length_cons] at hlengths
        have hfraction : rest'.takeWhile isDigit = rest.takeWhile isDigit := by
          apply takeWhile_of_prefix hprefix
          split at hle
          · rename_i hempty
            rw [Bool.and_eq_true, List.isEmpty_iff, List.isEmpty_iff] at hempty
            simp [hempty.2]
          · rw [List.length_append, List.length_cons] at hle
            omega
        rw [leadingDigits_of_point hrest', hwhole, hfraction]
    · have hnot : ∀ x ∈ (t.dropWhile isDigit).head?, x ≠ '.' := by
        rcases hbehind with hnil | ⟨rest', hrest', -⟩
        · simp [hnil]
        · simpa [hrest'] using hc
      rw [leadingDigits_of_whole hnot, leadingDigits_of_whole (by simpa [hrest] using hc), hwhole]

/-- Digits behind the start of an exponent; without digits there is no exponent. -/
def exponentOf (lead behind : List Char) : List Char :=
  if (behind.takeWhile isDigit).isEmpty then [] else lead ++ behind.takeWhile isDigit

theorem exponentOf_of_prefix {lead : List Char} (h : t <+: s)
    (hle : (exponentOf lead s).length ≤ lead.length + t.length) :
    exponentOf lead t = exponentOf lead s := by
  have hdigits : t.takeWhile isDigit = s.takeWhile isDigit := by
    apply takeWhile_of_prefix h
    unfold exponentOf at hle
    split at hle
    · rename_i hempty
      simp [List.isEmpty_iff.mp hempty]
    · rw [List.length_append] at hle
      omega
  rw [exponentOf, exponentOf, hdigits]

theorem leadingExponent_cons (c x : Char) (behind : List Char) :
    leadingExponent (c :: x :: behind) =
      if c == 'e' || c == 'E' then
        if x == '+' || x == '-' then exponentOf [c, x] behind else exponentOf [c] (x :: behind)
      else [] := rfl

theorem leadingExponent_singleton (c : Char) : leadingExponent [c] = [] := by
  simp [leadingExponent]

theorem leadingExponent_of_prefix (h : t <+: s) (hle : (leadingExponent s).length ≤ t.length) :
    leadingExponent t = leadingExponent s := by
  rcases s with _ | ⟨c, _ | ⟨x, s⟩⟩
  · rw [List.prefix_nil.mp h]
  · rcases List.prefix_cons_iff.mp h with rfl | ⟨t, rfl, hprefix⟩
    · exact (leadingExponent_singleton c).symm
    · rw [List.prefix_nil.mp hprefix]
  · rcases List.prefix_cons_iff.mp h with rfl | ⟨t, rfl, hprefix⟩
    · exact (List.length_eq_zero_iff.mp (Nat.le_zero.mp hle)).symm
    · rw [leadingExponent_cons] at hle ⊢
      rcases List.prefix_cons_iff.mp hprefix with rfl | ⟨t, rfl, hprefix'⟩
      · -- The text ends within the exponent, so that there are no digits in it.
        rw [leadingExponent_singleton]
        split
        · rename_i hstart
          rw [if_pos hstart] at hle
          split
          · rename_i hsign
            rw [if_pos hsign] at hle
            exact exponentOf_of_prefix (t := []) List.nil_prefix (Nat.le_succ_of_le hle)
          · rename_i hsign
            rw [if_neg hsign] at hle
            exact exponentOf_of_prefix (t := []) List.nil_prefix hle
        · rfl
      · rw [leadingExponent_cons]
        split
        · rename_i hstart
          rw [if_pos hstart] at hle
          simp only [List.length_cons] at hle
          split
          · rename_i hsign
            rw [if_pos hsign] at hle
            apply exponentOf_of_prefix hprefix'
            simp only [List.length_cons, List.length_nil]
            omega
          · rename_i hsign
            rw [if_neg hsign] at hle
            apply exponentOf_of_prefix hprefix
            simp only [List.length_cons, List.length_nil]
            omega
        · rfl

theorem leadingUnsigned_of_prefix (h : t <+: s) (hle : (leadingUnsigned s).length ≤ t.length) :
    leadingUnsigned t = leadingUnsigned s := by
  unfold leadingUnsigned at hle ⊢
  simp only at hle ⊢
  have hdigits : leadingDigits t = leadingDigits s := by
    apply leadingDigits_of_prefix h
    split at hle
    · rename_i hempty
      simp [List.isEmpty_iff.mp hempty]
    · rw [List.length_append] at hle
      omega
  rw [hdigits]
  split
  · rfl
  · rename_i hdigits'
    rw [if_neg hdigits', List.length_append] at hle
    have hbehind : t.drop (leadingDigits s).length <+: s.drop (leadingDigits s).length := by
      obtain ⟨behind, rfl⟩ := h
      rw [List.drop_append_of_le_length (by omega)]
      exact List.prefix_append _ _
    have hexponent := leadingExponent_of_prefix hbehind (by
      rw [List.length_drop]
      omega)
    rw [hexponent]

theorem leadingNumber_of_prefix (c : Char) (h : t <+: s)
    (hle : (leadingNumber (c :: s)).length ≤ t.length + 1) :
    leadingNumber (c :: t) = leadingNumber (c :: s) := by
  by_cases hc : c = '-'
  · subst hc
    simp only [leadingNumber] at hle ⊢
    have hdigits : leadingUnsigned t = leadingUnsigned s := by
      apply leadingUnsigned_of_prefix h
      split at hle
      · rename_i hempty
        simp [List.isEmpty_iff.mp hempty]
      · rw [List.length_cons] at hle
        omega
    rw [hdigits]
  · have hunsigned (behind : List Char) :
        leadingNumber (c :: behind) = leadingUnsigned (c :: behind) := by
      unfold leadingNumber
      split
      · rename_i heq
        exact absurd (List.cons.inj heq).1 hc
      · rfl
    rw [hunsigned] at hle
    rw [hunsigned, hunsigned]
    exact leadingUnsigned_of_prefix (List.cons_prefix_cons.mpr ⟨rfl, h⟩) hle

end Numbers

section Tokens

variable {c : Char} {rest front : List Char}

theorem mark?_of_prefix (h : front <+: rest)
    (hle : ∀ token extra, mark? c rest = some (token, extra) → extra ≤ front.length) :
    mark? c front = mark? c rest := by
  cases front with
  | nil =>
    unfold mark? at hle ⊢
    split at hle <;> simp_all
  | cons x front =>
    obtain ⟨behind, rfl⟩ := h
    unfold mark?
    simp only [List.cons_append]
    split <;> simp_all

theorem readText_of_prefix {quote : Char} {value : List Char} {n : Nat}
    (h : readText quote rest = some (value, n)) :
    readText quote (rest.take n) = some (value, n) := by
  fun_induction readText quote rest generalizing value n with
  | case1 => contradiction
  | case2 c rest hc =>
    cases h
    rw [List.take_succ_cons, List.take_zero, readText.eq_def]
    simp only [hc, if_true]
  | case3 c hc hb => contradiction
  | case4 c hc hb e rest ih =>
    obtain ⟨⟨v, m⟩, hread, heq⟩ := Option.map_eq_some_iff.mp h
    cases heq
    rw [List.take_succ_cons, List.take_succ_cons, readText.eq_def]
    simp only [hc, hb, if_true, Bool.false_eq_true, if_false, ih hread, Option.map_some]
  | case5 c rest hc hb hn => contradiction
  | case6 c rest hc hb hn ih =>
    obtain ⟨⟨v, m⟩, hread, heq⟩ := Option.map_eq_some_iff.mp h
    cases heq
    rw [List.take_succ_cons, readText.eq_def]
    simp only [hc, hb, hn, Bool.false_eq_true, if_false, ih hread, Option.map_some]

theorem tokenAt_of_prefix {token : Token} {extra : Nat} (h : front <+: rest)
    (hle : extra ≤ front.length) (htoken : tokenAt c rest = .ok (token, extra)) :
    tokenAt c front = .ok (token, extra) := by
  unfold tokenAt at htoken ⊢
  cases hmark : mark? c rest with
  | some found =>
    simp only [hmark, Except.ok.injEq] at htoken
    subst htoken
    have hfront := mark?_of_prefix h (c := c) (by
      intro token' extra' hmark'
      rw [hmark] at hmark'
      cases hmark'
      exact hle)
    rw [hfront, hmark]
  | none =>
    have hfront := mark?_of_prefix h (c := c) (by simp [hmark])
    rw [hmark] at htoken hfront
    rw [hfront]
    simp only at htoken ⊢
    split at htoken
    · rename_i hquote
      rw [if_pos hquote]
      cases hread : readText c rest with
      | none =>
        rw [hread] at htoken
        contradiction
      | some read =>
        obtain ⟨value, n⟩ := read
        simp only [hread, Except.ok.injEq, Prod.mk.injEq] at htoken
        obtain ⟨rfl, rfl⟩ := htoken
        obtain ⟨behind, rfl⟩ := h
        have htake := readText_of_prefix hread
        rw [List.take_append_of_le_length hle] at htake
        have hfront' := readText_append_of_some (t := front.drop n) htake
        rw [List.take_append_drop] at hfront'
        simp only [hfront']
    · rename_i hquote
      rw [if_neg hquote]
      cases hnumber : leadingNumber (c :: rest) with
      | cons d digits =>
        simp only [hnumber] at htoken
        cases hvalue : Numeral.decimal? (d :: digits) with
        | none =>
          rw [hvalue] at htoken
          contradiction
        | some value =>
          simp only [hvalue, Except.ok.injEq, Prod.mk.injEq] at htoken
          obtain ⟨rfl, rfl⟩ := htoken
          have hnumber' := leadingNumber_of_prefix c h (by
            rw [hnumber]
            exact Nat.succ_le_succ hle)
          rw [hnumber', hnumber]
          simp only [hvalue]
      | nil =>
        have hnumber' := leadingNumber_of_prefix c h (by simp [hnumber])
        rw [hnumber', hnumber]
        simp only [hnumber] at htoken ⊢
        split at htoken
        · rename_i hstart
          simp only [Except.ok.injEq, Prod.mk.injEq] at htoken
          obtain ⟨hword, rfl⟩ := htoken
          rw [if_pos hstart, takeWhile_of_prefix h hle, hword]
        · contradiction

theorem checkApart_of_prefix {token : Token} {lexeme behind front : List Char}
    (h : front <+: behind) (hapart : checkApart token lexeme behind = .ok ()) :
    checkApart token lexeme front = .ok () := by
  cases front with
  | nil => rfl
  | cons next front =>
    obtain ⟨behind, rfl⟩ := h
    exact hapart

/-- A token is found in every text that goes on as far as its last character. -/
theorem nextToken_of_prefix {token : Token} {extra : Nat} (h : front <+: rest)
    (hle : extra ≤ front.length) (hnext : nextToken c rest = .ok (token, extra)) :
    nextToken c front = .ok (token, extra) := by
  obtain ⟨htoken, hapart⟩ := nextToken_eq_ok_iff.mp hnext
  have hfront := tokenAt_of_prefix h hle htoken
  refine nextToken_eq_ok_iff.mpr ⟨hfront, ?_⟩
  obtain ⟨behind, rfl⟩ := h
  rw [List.take_append_of_le_length hle, List.drop_append_of_le_length hle] at hapart
  exact checkApart_of_prefix (List.prefix_append _ _) hapart

end Tokens

section Places

/-- A place in a text that is not its end: the text in front of it has these tokens. -/
def Reaches (offset : Nat) (s : List Char) (before : List Lexeme) (place : Nat) : Prop :=
  ∃ front behind, s = front ++ behind ∧ behind ≠ [] ∧ offset + byteLength front = place ∧
    scan offset front = .ok before

variable {offset place : Nat} {c : Char} {rest : List Char} {before : List Lexeme}

theorem reaches_start (offset : Nat) (c : Char) (rest : List Char) :
    Reaches offset (c :: rest) [] offset :=
  ⟨[], c :: rest, rfl, List.cons_ne_nil _ _, rfl, scan_nil _⟩

theorem Reaches.separator (hc : isSeparator c = true) (h : Reaches (offset + 1) rest before place) :
    Reaches offset (c :: rest) (⟨.separator, offset, [c]⟩ :: before) place := by
  obtain ⟨front, behind, rfl, hne, hplace, hscan⟩ := h
  refine ⟨c :: front, behind, rfl, hne, ?_, ?_⟩
  · rw [byteLength, utf8Size_of_isSeparator hc, ← Nat.add_assoc, hplace]
  · rw [scan_separator hc, hscan]
    rfl

theorem Reaches.blank (hc : isSeparator c = false) (hb : isBlank c = true)
    (h : Reaches (offset + c.utf8Size) rest before place) :
    Reaches offset (c :: rest) before place := by
  obtain ⟨front, behind, rfl, hne, hplace, hscan⟩ := h
  refine ⟨c :: front, behind, rfl, hne, ?_, ?_⟩
  · rw [byteLength, ← Nat.add_assoc, hplace]
  · rw [scan_blank hc hb, hscan]

/-- The token at the start is the same in the text that ends at the place. -/
theorem Reaches.token {token : Token} {extra : Nat} (hc : isSeparator c = false)
    (hb : isBlank c = false) (hnext : nextToken c rest = .ok (token, extra))
    (h : Reaches (offset + byteLength (c :: rest.take extra)) (rest.drop extra) before place) :
    Reaches offset (c :: rest) (⟨token, offset, c :: rest.take extra⟩ :: before) place := by
  obtain ⟨front, behind, hsplit, hne, hplace, hscan⟩ := h
  have hle : extra ≤ (rest.take extra).length := by
    rw [List.length_take]
    exact Nat.le_min.mpr ⟨Nat.le_refl _, length_le_of_nextToken hnext⟩
  have hrest : rest = rest.take extra ++ front ++ behind := by
    rw [List.append_assoc, ← hsplit, List.take_append_drop]
  have hprefix : rest.take extra ++ front <+: rest := ⟨behind, hrest.symm⟩
  have hfront := nextToken_of_prefix hprefix (by
    rw [List.length_append]
    omega) hnext
  refine ⟨c :: rest.take extra ++ front, behind, ?_, hne, ?_, ?_⟩
  · rw [List.cons_append, List.cons_append, ← hrest]
  · rw [byteLength_append, ← Nat.add_assoc, hplace]
  · rw [List.cons_append, scan_token hc hb hfront, List.take_append_of_le_length hle,
      List.drop_append_of_le_length hle, List.take_take, Nat.min_self, List.drop_take, Nat.sub_self,
      List.take_zero, List.nil_append, hscan]
    rfl

/-- The place of a token is reached with the tokens before it. -/
theorem reaches_of_ok {s : List Char} {behind : List Lexeme} {l : Lexeme}
    (h : scan offset s = .ok (before ++ l :: behind)) : Reaches offset s before l.offset := by
  induction offset, s using scan_induction generalizing before with
  | nil offset =>
    rw [scan_nil] at h
    simp at h
  | separator offset c rest hc ih =>
    rw [scan_separator hc] at h
    cases hrest : scan (offset + 1) rest with
    | error e =>
      rw [hrest] at h
      contradiction
    | ok found =>
      rw [hrest] at h
      cases before with
      | nil =>
        cases h
        exact reaches_start offset c rest
      | cons first before =>
        simp only [Except.map, List.cons_append, Except.ok.injEq, List.cons.injEq] at h
        obtain ⟨rfl, rfl⟩ := h
        exact (ih hrest).separator hc
  | blank offset c rest hc hb ih =>
    rw [scan_blank hc hb] at h
    exact (ih h).blank hc hb
  | fault offset c rest found hc hb hnext =>
    rw [scan_fault hc hb hnext] at h
    contradiction
  | token offset c rest found extra hc hb hnext ih =>
    rw [scan_token hc hb hnext] at h
    cases hrest : scan (offset + byteLength (c :: rest.take extra)) (rest.drop extra) with
    | error e =>
      rw [hrest] at h
      contradiction
    | ok more =>
      rw [hrest] at h
      cases before with
      | nil =>
        cases h
        exact reaches_start offset c rest
      | cons first before =>
        simp only [Except.map, List.cons_append, Except.ok.injEq, List.cons.injEq] at h
        obtain ⟨rfl, rfl⟩ := h
        exact (ih hrest).token hc hb hnext

/-- The place where no token is found is reached. -/
theorem reaches_of_error {s : List Char} {fault : Fault}
    (h : scan offset s = .error (place, fault)) :
    ∃ before, Reaches offset s before place := by
  induction offset, s using scan_induction with
  | nil offset =>
    rw [scan_nil] at h
    contradiction
  | separator offset c rest hc ih =>
    rw [scan_separator hc] at h
    cases hrest : scan (offset + 1) rest with
    | ok found =>
      rw [hrest] at h
      contradiction
    | error e =>
      rw [hrest] at h
      cases h
      obtain ⟨before, hreaches⟩ := ih hrest
      exact ⟨_, hreaches.separator hc⟩
  | blank offset c rest hc hb ih =>
    rw [scan_blank hc hb] at h
    obtain ⟨before, hreaches⟩ := ih h
    exact ⟨before, hreaches.blank hc hb⟩
  | fault offset c rest found hc hb hnext =>
    rw [scan_fault hc hb hnext] at h
    cases h
    exact ⟨[], reaches_start _ c rest⟩
  | token offset c rest found extra hc hb hnext ih =>
    rw [scan_token hc hb hnext] at h
    cases hrest : scan (offset + byteLength (c :: rest.take extra)) (rest.drop extra) with
    | ok more =>
      rw [hrest] at h
      contradiction
    | error e =>
      rw [hrest] at h
      cases h
      obtain ⟨before, hreaches⟩ := ih hrest
      exact ⟨_, hreaches.token hc hb hnext⟩

end Places

section Offsets

variable {offset : Nat} {s : List Char} {before behind : List Lexeme} {l : Lexeme}

theorem byteLength_pos {s : List Char} (h : s ≠ []) : 0 < byteLength s := by
  obtain ⟨c, rest, rfl⟩ := List.exists_cons_of_ne_nil h
  exact Nat.add_pos_left c.utf8Size_pos _

/-- Every token starts before the end of the text. -/
theorem offset_lt_of_mem {tokens : List Lexeme} (h : scan offset s = .ok tokens) (hl : l ∈ tokens) :
    l.offset < offset + byteLength s := by
  obtain ⟨before, behind, rfl⟩ := List.append_of_mem hl
  obtain ⟨front, rest, rfl, hne, hplace, -⟩ := reaches_of_ok h
  have hpos := byteLength_pos hne
  rw [byteLength_append]
  omega

theorem offset_lt_of_mem_before (h : scan offset s = .ok (before ++ l :: behind)) {x : Lexeme}
    (hx : x ∈ before) : x.offset < l.offset := by
  obtain ⟨front, rest, -, -, hplace, hscan⟩ := reaches_of_ok h
  rw [← hplace]
  exact offset_lt_of_mem hscan hx

theorem offset_lt_of_mem_behind (h : scan offset s = .ok (before ++ l :: behind)) {x : Lexeme}
    (hx : x ∈ behind) : l.offset < x.offset := by
  obtain ⟨between, rest, rfl⟩ := List.append_of_mem hx
  rw [← List.cons_append, ← List.append_assoc] at h
  exact offset_lt_of_mem_before h (by simp)

end Offsets

end Traceability.Filter
