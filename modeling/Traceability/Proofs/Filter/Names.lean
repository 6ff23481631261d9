import Mathlib.Data.List.TakeWhile
import Traceability.Proofs.Filter.Scanning
import Traceability.Proofs.Filter.Acceptance

/-!
The names that a filter can read: words of letters, digits and underscores that start with
no digit and are none of the four keywords. The identifiers of a filter are those among its
tokens, and each of the names is read by some filter.
-/

namespace Traceability.Filter

open Text

def keywords : List String := ["and", "or", "not", "in"]

theorem ofWord_of_notMem {word : String} (h : word ∉ keywords) : ofWord word = .identifier word := by
  simp only [keywords, List.mem_cons, List.not_mem_nil, or_false, not_or] at h
  simp [ofWord, h]

theorem of_ofWord {word name : String} (h : ofWord word = .identifier name) :
    word = name ∧ name ∉ keywords := by
  by_cases hword : word ∈ keywords
  · simp only [keywords, List.mem_cons, List.not_mem_nil, or_false] at hword
    rcases hword with rfl | rfl | rfl | rfl
    · cases h
    · cases h
    · cases h
    · cases h
  · rw [ofWord_of_notMem hword, Token.identifier.injEq] at h
    exact ⟨h, h ▸ hword⟩

section Scanned

/-- An identifier token is a word, and no keyword. -/
theorem of_tokenAt {c : Char} {rest : List Char} {name : String} {n : Nat}
    (h : tokenAt c rest = .ok (.identifier name, n)) :
    isIdentifier name.toList = true ∧ name ∉ keywords := by
  unfold tokenAt at h
  split at h
  · rename_i found hmark
    cases h
    unfold mark? at hmark
    split at hmark <;> cases hmark
  · split at h
    · split at h <;> cases h
    · split at h
      · split at h <;> cases h
      · split at h
        · rename_i hstart
          simp only [Except.ok.injEq, Prod.mk.injEq] at h
          obtain ⟨hword, -⟩ := h
          obtain ⟨rfl, hkeyword⟩ := of_ofWord hword
          have hmore : (rest.takeWhile isWordCharacter).all isWordCharacter = true :=
            List.all_takeWhile
          refine ⟨?_, hkeyword⟩
          rw [String.toList_ofList, isIdentifier, hstart, hmore]
          rfl
        · cases h

theorem of_scan {offset : Nat} {s : List Char} {tokens : List Lexeme}
    (h : scan offset s = .ok tokens) {name : String}
    (hname : Token.identifier name ∈ tokensOf tokens) :
    isIdentifier name.toList = true ∧ name ∉ keywords := by
  induction offset, s using scan_induction generalizing tokens with
  | nil offset =>
    rw [scan_nil] at h
    cases h
    exact absurd hname List.not_mem_nil
  | separator offset c rest hc ih =>
    rw [scan_separator hc] at h
    cases hbehind : scan (offset + 1) rest with
    | error e =>
      rw [hbehind] at h
      contradiction
    | ok behind =>
      rw [hbehind] at h
      cases h
      rw [tokensOf, List.map_cons, List.mem_cons] at hname
      rcases hname with hfirst | hrest
      · cases hfirst
      · exact ih hbehind hrest
  | blank offset c rest hc hb ih =>
    rw [scan_blank hc hb] at h
    exact ih h hname
  | fault offset c rest found hc hb hnext =>
    rw [scan_fault hc hb hnext] at h
    contradiction
  | token offset c rest found extra hc hb hnext ih =>
    rw [scan_token hc hb hnext] at h
    cases hbehind : scan (offset + byteLength (c :: rest.take extra)) (rest.drop extra) with
    | error e =>
      rw [hbehind] at h
      contradiction
    | ok behind =>
      rw [hbehind] at h
      cases h
      rw [tokensOf, List.map_cons, List.mem_cons] at hname
      rcases hname with hfirst | hrest
      · change Token.identifier name = found at hfirst
        rw [← hfirst] at hnext
        exact of_tokenAt (nextToken_eq_ok_iff.mp hnext).1
      · exact ih hbehind hrest

end Scanned

section Identifiers

mutual

theorem Operand.mem_identifiers (name : String) :
    ∀ x : Operand, name ∈ x.identifiers ↔ Token.identifier name ∈ x.tokens
  | .identifier _ | .number _ | .text _ | .list [] => by
    rw [Operand.tokens, Operand.identifiers]
    simp [Operand.identifiersOfAll]
  | .list (item :: items) => by
    have hitem := item.mem_identifiers name
    have hitems := Operand.mem_identifiersOfAll name items
    rw [Operand.tokens, Operand.identifiers, Operand.identifiersOfAll]
    simp [hitem, hitems]

theorem Operand.mem_identifiersOfAll (name : String) :
    ∀ items : List Operand, name ∈ Operand.identifiersOfAll items ↔
      Token.identifier name ∈ Operand.furtherTokens items
  | [] => by
    rw [Operand.furtherTokens, Operand.identifiersOfAll]
    simp
  | item :: items => by
    have hitem := item.mem_identifiers name
    have hitems := Operand.mem_identifiersOfAll name items
    rw [Operand.furtherTokens, Operand.identifiersOfAll]
    simp [hitem, hitems]

end

theorem Comparison.mem_identifiers (name : String) (c : Comparison) :
    name ∈ c.identifiers ↔ Token.identifier name ∈ c.tokens := by
  have hcomparator : Token.identifier name ∉ c.comparator.tokens := by
    cases c.comparator with
    | sign s => simp [Comparator.tokens]
    | within => simp [Comparator.tokens]
    | outside => simp [Comparator.tokens]
  rw [Comparison.identifiers, Comparison.tokens, List.mem_append, List.mem_append, List.mem_append,
    c.left.mem_identifiers, c.right.mem_identifiers]
  simp only [hcomparator, or_false]

theorem mem_furtherTokens (name : String) (chain : List (Connective × Comparison)) :
    Token.identifier name ∈ furtherTokens chain ↔
      name ∈ chain.flatMap fun link => link.2.identifiers := by
  induction chain with
  | nil => simp [furtherTokens_nil]
  | cons link chain ih =>
    obtain ⟨connective, c⟩ := link
    have hconnective : Token.identifier name ≠ connective.token := by
      cases connective with
      | and => simp [Connective.token]
      | or => simp [Connective.token]
    rw [furtherTokens_cons, List.mem_cons, List.mem_append, ih, List.flatMap_cons,
      List.mem_append, c.mem_identifiers]
    simp only [hconnective, false_or]

theorem Expression.mem_identifiers (name : String) (e : Expression) :
    name ∈ e.identifiers ↔ Token.identifier name ∈ e.tokens := by
  rw [Expression.identifiers, Expression.tokens, List.mem_append, List.mem_append,
    e.first.mem_identifiers, mem_furtherTokens]

end Identifiers

theorem mem_of_mem_withoutOuterSeparators {tokens : List Lexeme} {l : Lexeme}
    (h : l ∈ withoutOuterSeparators tokens) : l ∈ tokens := by
  obtain ⟨lead, trail, hsplit, -⟩ := exists_outerSeparators tokens
  rw [hsplit]
  simp [h]

/-- Every name that a filter reads is a word, and no keyword. -/
theorem of_mem_identifiers {text : String} {e : Expression} (h : Expression.parse text = .ok e)
    {name : String} (hname : name ∈ e.identifiers) :
    isIdentifier name.toList = true ∧ name ∉ keywords := by
  obtain ⟨-, tokens, htokens, hwritten⟩ := parse_eq_ok_iff.mp h
  rw [e.mem_identifiers, ← hwritten] at hname
  obtain ⟨l, hl, htoken⟩ := List.mem_map.mp hname
  have hscan : scan 0 text.toList = .ok tokens := htokens
  exact of_scan hscan (List.mem_map.mpr ⟨l, mem_of_mem_withoutOuterSeparators hl, htoken⟩)

section Words

/-- The code points of the characters that start a word. -/
def wordStartPoints : List Nat := List.range' 0x41 26 ++ [0x5F] ++ List.range' 0x61 26

/-- What holds of each of them by its code point holds of the start of a word. -/
theorem of_isWordStart {P : Char → Prop} (hpoints : ∀ n ∈ wordStartPoints, P (Char.ofNat n))
    {c : Char} (h : isWordStart c = true) : P c := by
  have hmem : c.toNat ∈ wordStartPoints := by
    simp only [isWordStart, isAsciiLetter, Bool.or_eq_true, Bool.and_eq_true, decide_eq_true_eq,
      beq_iff_eq] at h
    simp only [wordStartPoints, List.mem_append, List.mem_range'_1, List.mem_singleton]
    rcases h with (hlower | hupper) | rfl
    · omega
    · omega
    · decide
  have hc := hpoints c.toNat hmem
  rwa [Char.ofNat_toNat] at hc

theorem isSeparator_of_isWordStart {c : Char} (h : isWordStart c = true) :
    isSeparator c = false := of_isWordStart (P := fun c => isSeparator c = false) (by decide) h

theorem isBlank_of_isWordStart {c : Char} (h : isWordStart c = true) : isBlank c = false :=
  of_isWordStart (P := fun c => isBlank c = false) (by decide) h

theorem mark?_of_isWordStart {c : Char} (h : isWordStart c = true) (rest : List Char) :
    mark? c rest = none := by
  have hmarks : c ∉ ['[', ']', ',', '=', '!', '<', '>'] :=
    of_isWordStart (P := fun c => c ∉ ['[', ']', ',', '=', '!', '<', '>']) (by decide) h
  unfold mark?
  split <;> simp_all

theorem leadingNumber_of_isWordStart {c : Char} (h : isWordStart c = true) (rest : List Char) :
    leadingNumber (c :: rest) = [] := by
  have hdigit : isDigit c = false := of_isWordStart (P := fun c => isDigit c = false) (by decide) h
  have hminus : c ≠ '-' := of_isWordStart (P := fun c => c ≠ '-') (by decide) h
  have hpoint : c ≠ '.' := of_isWordStart (P := fun c => c ≠ '.') (by decide) h
  have hdigits : leadingDigits (c :: rest) = [] := by
    simp only [leadingDigits, List.takeWhile_cons, List.dropWhile_cons, hdigit, Bool.false_eq_true,
      if_false]
    split
    · rename_i heq
      exact absurd (List.cons.inj heq).1 hpoint
    · rfl
  unfold leadingNumber
  split
  · rename_i heq
    exact absurd (List.cons.inj heq).1 hminus
  · simp [leadingUnsigned, hdigits]

/-- A word is the token of a text that ends with it. -/
theorem nextToken_word {c : Char} {more : List Char} (h : isIdentifier (c :: more) = true) :
    nextToken c more = .ok (ofWord (String.ofList (c :: more)), more.length) := by
  rw [isIdentifier, Bool.and_eq_true] at h
  obtain ⟨hstart, hmore⟩ := h
  have hquote : (c == '\'' || c == '"') = false :=
    of_isWordStart (P := fun c => (c == '\'' || c == '"') = false) (by decide) hstart
  have hword : more.takeWhile isWordCharacter = more :=
    List.takeWhile_eq_self_iff.mpr (List.all_eq_true.mp hmore)
  rw [nextToken_eq_ok_iff]
  refine ⟨?_, ?_⟩
  · unfold tokenAt
    rw [mark?_of_isWordStart hstart, leadingNumber_of_isWordStart hstart]
    simp [hquote, hstart, hword]
  · rw [List.drop_length]
    rfl

/-- The filter that asks whether the value of a name is the empty text. -/
def asksEmpty (name : String) : Expression :=
  ⟨name ++ " == ''", ⟨.identifier name, .sign .eq, .text ""⟩, []⟩

theorem parse_asksEmpty {name : String} (h : isIdentifier name.toList = true)
    (hkeyword : name ∉ keywords) :
    Expression.parse (name ++ " == ''") = .ok (asksEmpty name) := by
  have htail : tokenize " == ''".toList =
      .ok [⟨.sign .eq, 1, ['=', '=']⟩, ⟨.text "", 4, ['\'', '\'']⟩] :=
    tokenize_eq_ok (by decide +kernel)
  cases hname : name.toList with
  | nil =>
    rw [hname] at h
    contradiction
  | cons c more =>
    rw [hname] at h
    have hstart : isWordStart c = true := by
      rw [isIdentifier, Bool.and_eq_true] at h
      exact h.1
    have htoken : ofWord (String.ofList (c :: more)) = .identifier name := by
      rw [← hname, String.ofList_toList]
      exact ofWord_of_notMem hkeyword
    have hnext := nextToken_word h
    rw [htoken] at hnext
    have hscan : scan 0 (c :: more) = .ok [⟨.identifier name, 0, c :: more⟩] := by
      rw [scan_token (isSeparator_of_isWordStart hstart) (isBlank_of_isWordStart hstart) hnext,
        List.take_length, List.drop_length, scan_nil]
      rfl
    have hblank : ∀ b ∈ " == ''".toList.head?, isBlank b = true := by
      intro b hb
      cases hb
      rfl
    have htokens : tokenize (name ++ " == ''").toList =
        .ok ([⟨.identifier name, 0, c :: more⟩] ++ [⟨.sign .eq, 1, ['=', '=']⟩,
          ⟨.text "", 4, ['\'', '\'']⟩].map (Lexeme.moved (byteLength (c :: more)))) := by
      rw [String.toList_append, hname, tokenize, scan_append_of_ok hblank hscan, scan_add,
        ← tokenize, htail]
      rfl
    exact parse_eq_ok_iff.mpr ⟨rfl, _, htokens, rfl⟩

/-- The names that filters read are the words that are no keywords. -/
theorem exists_mem_identifiers_iff (name : String) :
    (∃ text e, Expression.parse text = .ok e ∧ name ∈ e.identifiers) ↔
      isIdentifier name.toList = true ∧ name ∉ keywords := by
  constructor
  · intro hread
    obtain ⟨text, e, hparse, hname⟩ := hread
    exact of_mem_identifiers hparse hname
  · intro hname
    exact ⟨_, _, parse_asksEmpty hname.1 hname.2, List.mem_cons_self⟩

end Words

end Traceability.Filter
