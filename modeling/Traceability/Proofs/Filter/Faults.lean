import Traceability.Proofs.Filter.Truncation
import Traceability.Proofs.Filter.Completion

/-!
Where a filter is faulty. The reported place parts the text in two. If no token starts there, the
text in front of it has tokens all the same; and if a token is out of place there, those in front
of it are how some filter begins.
-/

namespace Traceability.Filter

open Text

/-- The tokens of some filter, without the separators around it, begin like this. -/
def Viable (tokens : List Token) : Prop :=
  ∃ (accepted : String) (e : Expression) (further : List Lexeme),
    Expression.parse accepted = .ok e ∧ tokenize accepted.toList = .ok further ∧
      tokens <+: tokensOf (withoutOuterSeparators further)

section Completing

/-- A token of a completion, behind a blank. -/
def Closing.characters : Closing → List Char
  | value => [' ', '\'', '\'']
  | equals => [' ', '=', '=']
  | bracket => [' ', ']']

def Closing.text (closings : List Closing) : List Char := closings.flatMap Closing.characters

theorem Closing.isBlank_head? (closings : List Closing) :
    ∀ b ∈ (Closing.text closings).head?, isBlank b = true := by
  intro b hb
  cases closings with
  | nil => cases hb
  | cons closing closings =>
    cases closing with
    | value | equals | bracket =>
      cases hb
      rfl

theorem Closing.exists_scan (closing : Closing) (offset : Nat) :
    ∃ l, l.token = closing.token ∧ scan offset closing.characters = .ok [l] := by
  have hblank (rest : List Char) : scan offset (' ' :: rest) = scan (offset + 1) rest :=
    scan_blank rfl rfl offset rest
  cases closing with
  | value =>
    have hnext : nextToken '\'' ['\''] = .ok (.text "", 1) := rfl
    refine ⟨⟨.text "", offset + 1, ['\'', '\'']⟩, rfl, ?_⟩
    rw [Closing.characters, hblank, scan_token rfl rfl hnext, List.drop_one, List.tail_cons,
      scan_nil]
    rfl
  | equals =>
    have hnext : nextToken '=' ['='] = .ok (.sign .eq, 1) := rfl
    refine ⟨⟨.sign .eq, offset + 1, ['=', '=']⟩, rfl, ?_⟩
    rw [Closing.characters, hblank, scan_token rfl rfl hnext, List.drop_one, List.tail_cons,
      scan_nil]
    rfl
  | bracket =>
    have hnext : nextToken ']' [] = .ok (.closeList, 0) := rfl
    refine ⟨⟨.closeList, offset + 1, [']']⟩, rfl, ?_⟩
    rw [Closing.characters, hblank, scan_token rfl rfl hnext, List.drop_zero, scan_nil]
    rfl

theorem Closing.exists_scan_text (closings : List Closing) (offset : Nat) :
    ∃ tokens, scan offset (Closing.text closings) = .ok tokens ∧
      tokensOf tokens = Closing.tokens closings := by
  induction closings generalizing offset with
  | nil => exact ⟨[], scan_nil offset, rfl⟩
  | cons closing closings ih =>
    obtain ⟨l, hl, hfirst⟩ := closing.exists_scan offset
    obtain ⟨tokens, hrest, htokens⟩ := ih (offset + byteLength closing.characters)
    refine ⟨l :: tokens, ?_, ?_⟩
    · have happend := scan_append_of_ok (Closing.isBlank_head? closings) hfirst
      rw [hrest] at happend
      exact happend
    · change l.token :: tokensOf tokens = closing.token :: Closing.tokens closings
      rw [hl, htokens]

/-- What completes the beginning of a filter can be written behind its text. -/
theorem viable_of_completed {front : List Char} {lead used : List Lexeme} {closings : List Closing}
    (hfront : tokenize front = .ok (lead ++ used)) (hlead : ∀ l ∈ lead, l.token = .separator)
    (hchain : Grammar.Chain (tokensOf used ++ Closing.tokens closings)) :
    Viable (tokensOf used) := by
  obtain ⟨first, rest, hwritten⟩ := (Grammar.chain_iff _).mp hchain
  obtain ⟨added, hadded, htokens⟩ := Closing.exists_scan_text closings (0 + byteLength front)
  have hall : tokenize (front ++ Closing.text closings) = .ok (lead ++ used ++ added) := by
    rw [tokenize, scan_append_of_ok (Closing.isBlank_head? closings) hfront, hadded]
    rfl
  have hmid : tokensOf (used ++ added) = first.tokens ++ furtherTokens rest := by
    rw [tokensOf_append, htokens, hwritten]
  have hkept : withoutOuterSeparators (lead ++ used ++ added) = used ++ added := by
    have htrail := withoutOuterSeparators_of_written hlead hmid (List.forall_mem_nil _)
    rwa [List.append_nil, ← List.append_assoc] at htrail
  refine ⟨String.ofList (front ++ Closing.text closings), ⟨_, first, rest⟩,
    lead ++ used ++ added, parse_eq_ok_iff.mpr ⟨rfl, lead ++ used ++ added, ?_, ?_⟩, ?_, ?_⟩
  · rw [String.toList_ofList, hall]
  · rw [hkept, hmid, Expression.tokens]
  · rw [String.toList_ofList, hall]
  · rw [hkept, tokensOf_append]
    exact List.prefix_append _ _

/-- Every filter begins with no tokens, say `'' == ''`. -/
theorem viable_nil : Viable [] := by
  have hterm := Grammar.Chain.terms (term_of_value (.text "")) .nil
  have hchain : Grammar.Chain (tokensOf [] ++ Closing.tokens [.value, .equals, .value]) := hterm
  have hempty : tokenize [] = .ok ([] ++ []) := scan_nil 0
  exact viable_of_completed hempty (List.forall_mem_nil _) hchain

end Completing

section Places

variable {s : List Char} {tokens : List Lexeme}

theorem byteLength_toList (text : String) : byteLength text.toList = text.utf8ByteSize := by
  have hofList (s : List Char) : byteLength s = (String.ofList s).utf8ByteSize := by
    induction s with
    | nil => rfl
    | cons c s ih =>
      rw [byteLength, ih, String.ofList_cons, String.utf8ByteSize_append,
        String.utf8ByteSize_singleton]
  rw [hofList, String.ofList_toList]

/-- The text that has only the first tokens. -/
theorem exists_tokenize_front {before behind : List Lexeme}
    (h : tokenize s = .ok (before ++ behind)) : ∃ front, tokenize front = .ok before := by
  cases behind with
  | nil =>
    rw [List.append_nil] at h
    exact ⟨s, h⟩
  | cons l behind =>
    obtain ⟨front, -, -, -, -, hscan⟩ := reaches_of_ok h
    exact ⟨front, hscan⟩

/-- The tokens in front of a stop are those that start before its place. -/
theorem filter_of_behind {stop : Stop} {lead kept trail used : List Lexeme}
    (h : tokenize s = .ok (lead ++ kept ++ trail)) (hbehind : stop.Behind kept used) :
    kept.filter (fun l => l.offset < stop.offset (byteLength s)) = used := by
  cases stop with
  | «at» offset fault =>
    obtain ⟨t, rest, rfl, rfl⟩ := hbehind
    have hsplit : tokenize s = .ok (lead ++ used ++ t :: (rest ++ trail)) := by
      rw [h]
      simp
    have hused : ∀ l ∈ used, decide (l.offset < t.offset) = true := by
      intro l hl
      exact decide_eq_true (offset_lt_of_mem_before hsplit (List.mem_append_right lead hl))
    have hrest : ∀ l ∈ t :: rest, decide (l.offset < t.offset) ≠ true := by
      intro l hl
      rw [Ne, decide_eq_true_iff, Nat.not_lt]
      rcases List.mem_cons.mp hl with rfl | hl
      · exact Nat.le_refl _
      · exact Nat.le_of_lt (offset_lt_of_mem_behind hsplit (List.mem_append_left trail hl))
    rw [Stop.offset, List.filter_append, List.filter_eq_self.mpr hused,
      List.filter_eq_nil_iff.mpr hrest, List.append_nil]
  | atEnd fault =>
    obtain rfl : kept = used := hbehind
    rw [Stop.offset, List.filter_eq_self]
    intro l hl
    have hlt := offset_lt_of_mem h (List.mem_append_left trail (List.mem_append_right lead hl))
    rw [Nat.zero_add] at hlt
    exact decide_eq_true hlt

/-- The place of a stop parts the text. -/
theorem exists_front_of_behind {stop : Stop} {lead kept trail used : List Lexeme}
    (h : tokenize s = .ok (lead ++ kept ++ trail)) (hbehind : stop.Behind kept used) :
    ∃ front, front <+: s ∧ byteLength front = stop.offset (byteLength s) := by
  cases stop with
  | «at» offset fault =>
    obtain ⟨t, rest, rfl, rfl⟩ := hbehind
    rw [← List.append_assoc, List.append_assoc, List.cons_append] at h
    obtain ⟨front, behind, rfl, -, hplace, -⟩ := reaches_of_ok h
    rw [Nat.zero_add] at hplace
    exact ⟨front, List.prefix_append _ _, hplace⟩
  | atEnd fault => exact ⟨s, List.prefix_rfl, rfl⟩

/-- Reading stops at a place in the text, behind the beginning of a filter. -/
theorem viable_of_readTokens_error {stop : Stop} (htokens : tokenize s = .ok tokens)
    (h : readTokens tokens = .error stop) :
    (∃ front, front <+: s ∧ byteLength front = stop.offset (byteLength s)) ∧
      Viable (tokensOf ((withoutOuterSeparators tokens).filter fun l =>
        l.offset < stop.offset (byteLength s))) := by
  rcases stopsWithin_readTokens h with ⟨hkept, rfl⟩ | ⟨used, closings, hbehind, hchain⟩
  · rw [hkept]
    exact ⟨⟨[], List.nil_prefix, rfl⟩, viable_nil⟩
  · obtain ⟨lead, trail, hsplit, hlead, -⟩ := exists_outerSeparators tokens
    rw [hsplit] at htokens
    refine ⟨exists_front_of_behind htokens hbehind, ?_⟩
    rw [filter_of_behind htokens hbehind]
    obtain ⟨rest, hrest⟩ := hbehind.isPrefix
    rw [← hrest, ← List.append_assoc, List.append_assoc] at htokens
    obtain ⟨front, hfront⟩ := exists_tokenize_front htokens
    exact viable_of_completed hfront hlead hchain

end Places

theorem cases_parse_error {text : String} {error : SyntaxError}
    (h : Expression.parse text = .error error) :
    error.expression = text ∧
      (tokenize text.toList = .error (error.offset, error.fault) ∨
      ∃ tokens stop, tokenize text.toList = .ok tokens ∧ readTokens tokens = .error stop ∧
        error.offset = stop.offset (byteLength text.toList) ∧ error.fault = stop.fault) := by
  rw [Expression.parse] at h
  cases htokens : tokenize text.toList with
  | error found =>
    rw [htokens] at h
    cases h
    exact ⟨rfl, Or.inl rfl⟩
  | ok tokens =>
    rw [htokens] at h
    simp only at h
    cases hread : readTokens tokens with
    | ok filter =>
      rw [hread] at h
      contradiction
    | error stop =>
      rw [hread] at h
      cases h
      exact ⟨rfl, Or.inr ⟨tokens, stop, rfl, hread, rfl, rfl⟩⟩

theorem exists_parts {text : String} {front : List Char} {n : Nat} (h : front <+: text.toList)
    (hn : byteLength front = n) :
    n ≤ text.utf8ByteSize ∧ ∃ behind : String, text = String.ofList front ++ behind ∧
      (String.ofList front).utf8ByteSize = n := by
  obtain ⟨behind, hbehind⟩ := h
  have htext : text = String.ofList front ++ String.ofList behind := by
    rw [← String.ofList_append, hbehind, String.ofList_toList]
  have hsize : (String.ofList front).utf8ByteSize = n := by
    rw [← byteLength_toList, String.toList_ofList, hn]
  refine ⟨?_, String.ofList behind, htext, hsize⟩
  rw [htext, String.utf8ByteSize_append, hsize]
  exact Nat.le_add_right _ _

/-- A filter that cannot be read is reported with the first place that is wrong: between two
characters of the text, behind tokens that are all right. -/
theorem fault_behind_viable_front {text : String} {error : SyntaxError}
    (h : Expression.parse text = .error error) :
    error.expression = text ∧ error.offset ≤ text.utf8ByteSize ∧
    ∃ front behind : String, text = front ++ behind ∧ front.utf8ByteSize = error.offset ∧
      (∀ fault, tokenize text.toList = .error fault →
        ∃ tokens, tokenize front.toList = .ok tokens) ∧
      ∀ tokens, tokenize text.toList = .ok tokens →
        Viable (tokensOf ((withoutOuterSeparators tokens).filter fun l =>
          l.offset < error.offset)) := by
  obtain ⟨hexpression, hfault⟩ := cases_parse_error h
  rcases hfault with hfault | ⟨tokens, stop, htokens, hread, hoffset, -⟩
  · obtain ⟨before, front, rest, hsplit, -, hplace, hscan⟩ := reaches_of_error hfault
    rw [Nat.zero_add] at hplace
    obtain ⟨hle, behind, htext, hsize⟩ := exists_parts ⟨rest, hsplit.symm⟩ hplace
    refine ⟨hexpression, hle, String.ofList front, behind, htext, hsize, ?_, ?_⟩
    · intro fault hfault
      refine ⟨before, ?_⟩
      rw [String.toList_ofList]
      exact hscan
    · intro tokens htokens
      rw [hfault] at htokens
      contradiction
  · obtain ⟨⟨front, hprefix, hplace⟩, hviable⟩ := viable_of_readTokens_error htokens hread
    rw [← hoffset] at hplace hviable
    obtain ⟨hle, behind, htext, hsize⟩ := exists_parts hprefix hplace
    refine ⟨hexpression, hle, String.ofList front, behind, htext, hsize, ?_, ?_⟩
    · intro fault hfault
      rw [htokens] at hfault
      contradiction
    · intro found hfound
      rw [htokens] at hfound
      cases hfound
      exact hviable

/-- A list within a list that is not closed, behind a character of two bytes. -/
theorem fault_behind_viable_front_of_list :
    Expression.parse "x in ['é', [y and" =
      .error ⟨"x in ['é', [y and", 15, .unexpectedInList "and"⟩ ∧
    Viable [.identifier "x", .within, .openList, .text "é", .comma, .openList,
      .identifier "y"] := by
  have htokens : tokenize "x in ['é', [y and".toList =
      .ok [⟨.identifier "x", 0, ['x']⟩, ⟨.within, 2, ['i', 'n']⟩, ⟨.openList, 5, ['[']⟩,
        ⟨.text "é", 6, ['\'', 'é', '\'']⟩, ⟨.comma, 10, [',']⟩, ⟨.openList, 12, ['[']⟩,
        ⟨.identifier "y", 13, ['y']⟩, ⟨.and, 15, ['a', 'n', 'd']⟩] :=
    tokenize_eq_ok (by decide +kernel)
  have hparse : Expression.parse "x in ['é', [y and" =
      .error ⟨"x in ['é', [y and", 15, .unexpectedInList "and"⟩ := by
    rw [Expression.parse, htokens]
    simp [readTokens, withoutOuterSeparators, isSeparatorLexeme, readComparison, readOperand,
      readComparator, readItems, Stop.offset, Stop.fault, Lexeme.text]
  obtain ⟨-, -, front, behind, -, -, -, hviable⟩ := fault_behind_viable_front hparse
  exact ⟨hparse, hviable _ htokens⟩

end Traceability.Filter
