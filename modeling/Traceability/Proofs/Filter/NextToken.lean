import Traceability.Filter.Token

/-!
The token at the start of a text. What stands behind a blank has no part in it: the token
is the same where the text ends and where a blank follows. A quoted text is the exception,
since it reads over blanks until it is closed.
-/

namespace Traceability.Filter

open Text

/-- The code points of the blank characters. -/
def blankPoints : List Nat :=
  List.range' 9 5 ++ [0x20, 0x85, 0xA0, 0x1680] ++ List.range' 0x2000 11 ++
    [0x2028, 0x2029, 0x202F, 0x205F, 0x3000]

theorem mem_blankPoints {c : Char} (h : isBlank c = true) : c.toNat ∈ blankPoints := by
  simp only [isBlank, Bool.or_eq_true, Bool.and_eq_true, decide_eq_true_eq, beq_iff_eq,
    or_assoc] at h
  simp only [blankPoints, List.mem_append, List.mem_range'_1, List.mem_cons, List.not_mem_nil,
    or_false, or_assoc]
  rcases h with hascii | h
  · exact Or.inl (by omega)
  · exact Or.inr (by omega)

/-- What holds of each blank character by its code point holds of blank characters. -/
theorem of_isBlank {P : Char → Prop} (hpoints : ∀ n ∈ blankPoints, P (Char.ofNat n)) {c : Char}
    (h : isBlank c = true) : P c := by
  have hc := hpoints c.toNat (mem_blankPoints h)
  rwa [Char.ofNat_toNat] at hc

theorem glues_of_isBlank {c : Char} (h : isBlank c = true) : glues c = false :=
  of_isBlank (P := fun c => glues c = false) (by decide +kernel) h

theorem isWordCharacter_of_isBlank {c : Char} (h : isBlank c = true) :
    isWordCharacter c = false :=
  of_isBlank (P := fun c => isWordCharacter c = false) (by decide) h

theorem isDigit_of_isBlank {c : Char} (h : isBlank c = true) : isDigit c = false :=
  of_isBlank (P := fun c => isDigit c = false) (by decide) h

theorem ne_of_isBlank {b c : Char} (h : isBlank b = true) (hc : isBlank c = false) : b ≠ c := by
  rintro rfl
  rw [h] at hc
  contradiction

section Prefix

theorem prefix_leadingDigits (s : List Char) : leadingDigits s <+: s := by
  have hsplit := List.takeWhile_append_dropWhile (p := isDigit) (l := s)
  unfold leadingDigits
  simp only
  split
  · rename_i rest hrest
    split
    · exact List.nil_prefix
    · rw [hrest] at hsplit
      conv => rhs; rw [← hsplit]
      rw [List.prefix_append_right_inj, List.cons_prefix_cons]
      exact ⟨rfl, List.takeWhile_prefix _⟩
  · exact List.takeWhile_prefix _

theorem prefix_leadingExponent (s : List Char) : leadingExponent s <+: s := by
  unfold leadingExponent
  split
  · rename_i c rest
    split
    · split
      · rename_i s digits
        split
        · split
          · exact List.nil_prefix
          · simp only [List.cons_prefix_cons, true_and]
            exact List.takeWhile_prefix _
        · split
          · exact List.nil_prefix
          · simp only [List.cons_prefix_cons, true_and]
            exact List.takeWhile_prefix _
      · exact List.nil_prefix
    · exact List.nil_prefix
  · exact List.nil_prefix

theorem prefix_leadingUnsigned (s : List Char) : leadingUnsigned s <+: s := by
  unfold leadingUnsigned
  simp only
  split
  · exact List.nil_prefix
  · have hsplit := List.prefix_iff_eq_append.mp (prefix_leadingDigits s)
    conv => rhs; rw [← hsplit]
    rw [List.prefix_append_right_inj]
    exact prefix_leadingExponent _

theorem prefix_leadingNumber (s : List Char) : leadingNumber s <+: s := by
  unfold leadingNumber
  split
  · rename_i rest
    simp only
    split
    · exact List.nil_prefix
    · rw [List.cons_prefix_cons]
      exact ⟨rfl, prefix_leadingUnsigned rest⟩
  · exact prefix_leadingUnsigned _

theorem length_le_of_readText {quote : Char} {s value : List Char} {n : Nat}
    (h : readText quote s = some (value, n)) : n ≤ s.length := by
  fun_induction readText quote s generalizing value n with
  | case1 => contradiction
  | case2 c rest hc =>
    cases h
    simp
  | case3 c hc hb => contradiction
  | case4 c hc hb e rest ih =>
    obtain ⟨⟨v, m⟩, hread, heq⟩ := Option.map_eq_some_iff.mp h
    cases heq
    have hle := ih hread
    simp only [List.length_cons]
    omega
  | case5 c rest hc hb hn => contradiction
  | case6 c rest hc hb hn ih =>
    obtain ⟨⟨v, m⟩, hread, heq⟩ := Option.map_eq_some_iff.mp h
    cases heq
    have hle := ih hread
    simp only [List.length_cons]
    omega

theorem length_le_of_mark? {c : Char} {rest : List Char} {token : Token} {n : Nat}
    (h : mark? c rest = some (token, n)) : n ≤ rest.length := by
  unfold mark? at h
  split at h <;> cases h <;> simp

theorem length_le_of_tokenAt {c : Char} {rest : List Char} {token : Token} {n : Nat}
    (h : tokenAt c rest = .ok (token, n)) : n ≤ rest.length := by
  unfold tokenAt at h
  split at h
  · rename_i found hmark
    cases h
    exact length_le_of_mark? hmark
  · split at h
    · split at h
      · rename_i hread
        cases h
        exact length_le_of_readText hread
      · contradiction
    · split at h
      · rename_i d digits hnumber
        split at h
        · cases h
          have hlength := (prefix_leadingNumber (c :: rest)).length_le
          rw [hnumber] at hlength
          exact Nat.le_of_succ_le_succ hlength
        · contradiction
      · split at h
        · cases h
          exact (List.takeWhile_prefix _).length_le
        · contradiction

end Prefix

/-- The token that starts a text, which must stand apart from what follows it. -/
def nextToken (c : Char) (rest : List Char) : Except Fault (Token × Nat) :=
  match tokenAt c rest with
  | .error fault => .error fault
  | .ok (token, extra) =>
      match checkApart token (c :: rest.take extra) (rest.drop extra) with
      | .error fault => .error fault
      | .ok () => .ok (token, extra)

theorem nextToken_eq_ok_iff {c : Char} {rest : List Char} {token : Token} {extra : Nat} :
    nextToken c rest = .ok (token, extra) ↔ tokenAt c rest = .ok (token, extra) ∧
      checkApart token (c :: rest.take extra) (rest.drop extra) = .ok () := by
  unfold nextToken
  cases htoken : tokenAt c rest with
  | error fault => simp
  | ok found =>
    obtain ⟨token', extra'⟩ := found
    cases hapart : checkApart token' (c :: rest.take extra') (rest.drop extra') with
    | error fault =>
      simp only [hapart, reduceCtorEq, false_iff, not_and, Except.ok.injEq, Prod.mk.injEq]
      rintro ⟨rfl, rfl⟩
      rw [hapart]
      simp
    | ok =>
      simp only [hapart, Except.ok.injEq, Prod.mk.injEq, iff_self_and]
      rintro ⟨rfl, rfl⟩
      exact hapart

theorem length_le_of_nextToken {c : Char} {rest : List Char} {token : Token} {extra : Nat}
    (h : nextToken c rest = .ok (token, extra)) : extra ≤ rest.length :=
  length_le_of_tokenAt (nextToken_eq_ok_iff.mp h).1

section Behind

variable {t : List Char} (ht : ∀ b ∈ t.head?, isBlank b = true)
include ht

theorem takeWhile_append_blank {p : Char → Bool} (hp : ∀ b, isBlank b = true → p b = false)
    (s : List Char) : (s ++ t).takeWhile p = s.takeWhile p := by
  induction s with
  | nil =>
    cases t with
    | nil => rfl
    | cons b t => exact List.takeWhile_cons_of_neg (by simp [hp b (ht b rfl)])
  | cons c s ih => rw [List.cons_append, List.takeWhile_cons, List.takeWhile_cons, ih]

theorem dropWhile_append_blank {p : Char → Bool} (hp : ∀ b, isBlank b = true → p b = false)
    (s : List Char) : (s ++ t).dropWhile p = s.dropWhile p ++ t := by
  induction s with
  | nil =>
    cases t with
    | nil => rfl
    | cons b t => exact List.dropWhile_cons_of_neg (by simp [hp b (ht b rfl)])
  | cons c s ih =>
    rw [List.cons_append, List.dropWhile_cons, List.dropWhile_cons, ih]
    split <;> rfl

theorem leadingDigits_append (s : List Char) : leadingDigits (s ++ t) = leadingDigits s := by
  have hdigit : ∀ b, isBlank b = true → isDigit b = false := fun b => isDigit_of_isBlank
  unfold leadingDigits
  simp only
  rw [takeWhile_append_blank ht hdigit, dropWhile_append_blank ht hdigit]
  cases s.dropWhile isDigit with
  | nil =>
    cases t with
    | nil => rfl
    | cons b t =>
      have hb : b ≠ '.' := ne_of_isBlank (ht b rfl) rfl
      simp only [List.nil_append]
      split
      · rename_i heq
        exact absurd (List.cons.inj heq).1 hb
      · rfl
  | cons c rest =>
    rw [List.cons_append]
    by_cases hc : c = '.'
    · subst hc
      simp only [takeWhile_append_blank ht hdigit]
    · split
      · rename_i heq
        exact absurd (List.cons.inj heq).1 hc
      · split
        · rename_i heq
          exact absurd (List.cons.inj heq).1 hc
        · rfl

theorem leadingExponent_append (s : List Char) :
    leadingExponent (s ++ t) = leadingExponent s := by
  have hdigit : ∀ b, isBlank b = true → isDigit b = false := fun b => isDigit_of_isBlank
  rcases s with _ | ⟨c, _ | ⟨sign, digits⟩⟩
  · cases t with
    | nil => rfl
    | cons b t =>
      have hlower : b ≠ 'e' := ne_of_isBlank (ht b rfl) rfl
      have hupper : b ≠ 'E' := ne_of_isBlank (ht b rfl) rfl
      simp [leadingExponent, hlower, hupper]
  · cases t with
    | nil => rfl
    | cons b t =>
      have hplus : b ≠ '+' := ne_of_isBlank (ht b rfl) rfl
      have hminus : b ≠ '-' := ne_of_isBlank (ht b rfl) rfl
      simp [leadingExponent, hplus, hminus, hdigit b (ht b rfl)]
  · simp only [List.cons_append, leadingExponent]
    rw [← List.cons_append, takeWhile_append_blank ht hdigit, takeWhile_append_blank ht hdigit]

theorem leadingUnsigned_append (s : List Char) :
    leadingUnsigned (s ++ t) = leadingUnsigned s := by
  unfold leadingUnsigned
  simp only
  rw [leadingDigits_append ht, List.drop_append_of_le_length (prefix_leadingDigits s).length_le,
    leadingExponent_append ht]

theorem leadingNumber_append (c : Char) (s : List Char) :
    leadingNumber (c :: (s ++ t)) = leadingNumber (c :: s) := by
  unfold leadingNumber
  by_cases hc : c = '-'
  · subst hc
    simp only [leadingUnsigned_append ht]
  · split
    · rename_i heq
      exact absurd (List.cons.inj heq).1 hc
    · split
      · rename_i heq
        exact absurd (List.cons.inj heq).1 hc
      · rw [← List.cons_append, leadingUnsigned_append ht]

theorem mark?_append (c : Char) (s : List Char) : mark? c (s ++ t) = mark? c s := by
  cases s with
  | nil =>
    cases t with
    | nil => rfl
    | cons b t =>
      have hb : b ≠ '=' := ne_of_isBlank (ht b rfl) rfl
      unfold mark?
      split <;> simp_all
  | cons x s =>
    unfold mark?
    simp only [List.cons_append]
    split <;> simp_all

/-- A token that is no text is read off the characters before the first blank. -/
theorem tokenAt_append_of_ne {c : Char} (hc : ¬ (c == '\'' || c == '"') = true)
    (rest : List Char) : tokenAt c (rest ++ t) = tokenAt c rest := by
  have hword : ∀ b, isBlank b = true → isWordCharacter b = false :=
    fun b => isWordCharacter_of_isBlank
  unfold tokenAt
  simp only [hc, Bool.false_eq_true, if_false]
  rw [mark?_append ht, leadingNumber_append ht, takeWhile_append_blank ht hword]

theorem checkApart_append (token : Token) (lexeme behind : List Char) :
    checkApart token lexeme (behind ++ t) = checkApart token lexeme behind := by
  cases behind with
  | nil =>
    cases t with
    | nil => rfl
    | cons b t => simp [checkApart, glues_of_isBlank (ht b rfl)]
  | cons next behind => rfl

end Behind

theorem readText_append_of_some {quote : Char} {s t value : List Char} {n : Nat}
    (h : readText quote s = some (value, n)) : readText quote (s ++ t) = some (value, n) := by
  fun_induction readText quote s generalizing value n with
  | case1 => contradiction
  | case2 c rest hc =>
    rw [List.cons_append, readText.eq_def]
    simp only [hc, if_true, h]
  | case3 c hc hb => contradiction
  | case4 c hc hb e rest ih =>
    obtain ⟨⟨v, m⟩, hread, heq⟩ := Option.map_eq_some_iff.mp h
    cases heq
    rw [List.cons_append, List.cons_append, readText.eq_def]
    simp only [hc, hb, if_true, Bool.false_eq_true, if_false, ih hread, Option.map_some]
  | case5 c rest hc hb hn => contradiction
  | case6 c rest hc hb hn ih =>
    obtain ⟨⟨v, m⟩, hread, heq⟩ := Option.map_eq_some_iff.mp h
    cases heq
    rw [List.cons_append, readText.eq_def]
    simp only [hc, hb, hn, Bool.false_eq_true, if_false, ih hread, Option.map_some]

/-- Blanks do not close a text. -/
theorem readText_of_blank {quote : Char} (hquote : isBlank quote = false) {t : List Char}
    (ht : ∀ b ∈ t, isBlank b = true) : readText quote t = none := by
  induction t with
  | nil => rfl
  | cons b t ih =>
    rw [List.forall_mem_cons] at ht
    have hclose : b ≠ quote := ne_of_isBlank ht.1 hquote
    have hescape : b ≠ '\\' := ne_of_isBlank ht.1 rfl
    rw [readText.eq_def]
    simp [hclose, hescape, ih ht.2]

theorem readText_append_blank {quote : Char} (hquote : isBlank quote = false) {s t : List Char}
    (ht : ∀ b ∈ t, isBlank b = true) : readText quote (s ++ t) = readText quote s := by
  fun_induction readText quote s with
  | case1 => exact readText_of_blank hquote ht
  | case2 c rest hc =>
    rw [List.cons_append, readText.eq_def]
    simp only [hc, if_true]
  | case3 c hc hb =>
    rw [List.cons_append, List.nil_append, readText.eq_def]
    simp only [hc, hb, if_true, Bool.false_eq_true, if_false]
    cases t with
    | nil => rfl
    | cons b t =>
      rw [List.forall_mem_cons] at ht
      simp only [readText_of_blank hquote ht.2, Option.map_none]
  | case4 c hc hb e rest ih =>
    rw [List.cons_append, List.cons_append, readText.eq_def]
    simp only [hc, hb, if_true, Bool.false_eq_true, if_false, ih]
  | case5 c rest hc hb hn =>
    rw [List.cons_append, readText.eq_def]
    simp only [hc, hb, hn, if_true, Bool.false_eq_true, if_false]
  | case6 c rest hc hb hn ih =>
    rw [List.cons_append, readText.eq_def]
    simp only [hc, hb, hn, Bool.false_eq_true, if_false, ih]

theorem mark?_of_quote {c : Char} (hc : (c == '\'' || c == '"') = true) (rest : List Char) :
    mark? c rest = none := by
  rw [Bool.or_eq_true, beq_iff_eq, beq_iff_eq] at hc
  rcases hc with rfl | rfl
  · rfl
  · rfl

theorem isBlank_of_quote {c : Char} (hc : (c == '\'' || c == '"') = true) :
    isBlank c = false := by
  rw [Bool.or_eq_true, beq_iff_eq, beq_iff_eq] at hc
  rcases hc with rfl | rfl
  · rfl
  · rfl

theorem tokenAt_of_quote {c : Char} (hc : (c == '\'' || c == '"') = true) (rest : List Char) :
    tokenAt c rest = match readText c rest with
      | some (value, n) => .ok (.text (String.ofList value), n)
      | none => .error .unterminatedText := by
  unfold tokenAt
  rw [mark?_of_quote hc]
  exact if_pos hc

theorem tokenAt_append_of_ok {c : Char} {rest t : List Char} {found : Token × Nat}
    (ht : ∀ b ∈ t.head?, isBlank b = true) (h : tokenAt c rest = .ok found) :
    tokenAt c (rest ++ t) = .ok found := by
  by_cases hc : (c == '\'' || c == '"') = true
  · rw [tokenAt_of_quote hc] at h ⊢
    cases hread : readText c rest with
    | none =>
      rw [hread] at h
      contradiction
    | some read =>
      rw [readText_append_of_some hread]
      rw [hread] at h
      exact h
  · rw [tokenAt_append_of_ne ht hc, h]

theorem tokenAt_append_blank {c : Char} {rest t : List Char} (ht : ∀ b ∈ t, isBlank b = true) :
    tokenAt c (rest ++ t) = tokenAt c rest := by
  by_cases hc : (c == '\'' || c == '"') = true
  · rw [tokenAt_of_quote hc, tokenAt_of_quote hc,
      readText_append_blank (isBlank_of_quote hc) ht]
  · exact tokenAt_append_of_ne (fun b hb => ht b (List.mem_of_head? hb)) hc rest

/-- In front of a blank, the token of a text is the same as at its end. -/
theorem nextToken_append_of_ok {c : Char} {rest t : List Char} {token : Token} {extra : Nat}
    (ht : ∀ b ∈ t.head?, isBlank b = true) (h : nextToken c rest = .ok (token, extra)) :
    nextToken c (rest ++ t) = .ok (token, extra) := by
  have hle := length_le_of_nextToken h
  obtain ⟨htoken, hapart⟩ := nextToken_eq_ok_iff.mp h
  rw [nextToken_eq_ok_iff, List.take_append_of_le_length hle, List.drop_append_of_le_length hle,
    checkApart_append ht]
  exact ⟨tokenAt_append_of_ok ht htoken, hapart⟩

theorem nextToken_append_blank {c : Char} {rest t : List Char} (ht : ∀ b ∈ t, isBlank b = true) :
    nextToken c (rest ++ t) = nextToken c rest := by
  unfold nextToken
  rw [tokenAt_append_blank ht]
  cases htoken : tokenAt c rest with
  | error fault => rfl
  | ok found =>
    obtain ⟨token, extra⟩ := found
    have hle := length_le_of_tokenAt htoken
    simp only
    rw [List.take_append_of_le_length hle, List.drop_append_of_le_length hle,
      checkApart_append fun b hb => ht b (List.mem_of_head? hb)]

end Traceability.Filter
