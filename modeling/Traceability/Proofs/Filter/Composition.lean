import Traceability.Filter.Evaluation
import Traceability.Proofs.Text.Trimmed
import Traceability.Proofs.Filter.Scanning
import Traceability.Proofs.Filter.Acceptance

/-!
Texts that are put together from filters. Blanks around a filter make no difference. Two
filters with a connective between them are one filter, which evaluates the comparisons of
the first and then, from that outcome, those of the second.
-/

namespace Traceability.Filter

open Text

theorem tokensOf_map_moved (n : Nat) (tokens : List Lexeme) :
    tokensOf (tokens.map (Lexeme.moved n)) = tokensOf tokens := by
  rw [tokensOf, List.map_map]
  rfl

theorem withoutOuterSeparators_map_moved (n : Nat) (tokens : List Lexeme) :
    withoutOuterSeparators (tokens.map (Lexeme.moved n)) =
      (withoutOuterSeparators tokens).map (Lexeme.moved n) := by
  have hmoved : isSeparatorLexeme ∘ Lexeme.moved n = isSeparatorLexeme := rfl
  rw [withoutOuterSeparators, List.dropWhile_map, hmoved, ← List.map_reverse, List.dropWhile_map,
    hmoved, ← List.map_reverse, withoutOuterSeparators]

/-- Further separators around tokens are dropped together with those that are there. -/
theorem withoutOuterSeparators_around {lead trail : List Lexeme}
    (hlead : ∀ l ∈ lead, l.token = .separator) (htrail : ∀ l ∈ trail, l.token = .separator)
    (tokens : List Lexeme) :
    withoutOuterSeparators (lead ++ tokens ++ trail) = withoutOuterSeparators tokens := by
  have hdrop (l : List Lexeme) (hl : ∀ x ∈ l, x.token = .separator) (rest : List Lexeme) :
      (l ++ rest).dropWhile isSeparatorLexeme = rest.dropWhile isSeparatorLexeme :=
    List.dropWhile_append_of_pos fun x hx => isSeparatorLexeme_iff.mpr (hl x hx)
  have hreverse : ∀ l ∈ trail.reverse, l.token = .separator :=
    fun l hl => htrail l (List.mem_reverse.mp hl)
  unfold withoutOuterSeparators
  rw [List.append_assoc, hdrop lead hlead, List.dropWhile_append]
  split
  · rename_i hempty
    have htrailing : trail.dropWhile isSeparatorLexeme = [] := by
      have h := hdrop trail htrail []
      rwa [List.append_nil] at h
    rw [List.isEmpty_iff] at hempty
    rw [hempty, htrailing]
  · rw [List.reverse_append, hdrop trail.reverse hreverse]

/-- Blanks around a text change its tokens in their places and add separators around them. -/
theorem exists_scan_around {lead s trail : List Char} (hlead : ∀ c ∈ lead, isBlank c = true)
    (htrail : ∀ c ∈ trail, isBlank c = true) {tokens : List Lexeme}
    (h : tokenize s = .ok tokens) :
    ∃ before behind n, (∀ l ∈ before, l.token = .separator) ∧
      (∀ l ∈ behind, l.token = .separator) ∧
      tokenize (lead ++ s ++ trail) = .ok (before ++ tokens.map (Lexeme.moved n) ++ behind) := by
  obtain ⟨before, hbefore, hleading⟩ := exists_scan_of_blank 0 hlead
  obtain ⟨behind, hbehind, htrailing⟩ :=
    exists_scan_of_blank (0 + byteLength lead + byteLength s) htrail
  refine ⟨before, behind, byteLength lead, hbefore, hbehind, ?_⟩
  have hmoved : scan (0 + byteLength lead) s =
      .ok (tokens.map (Lexeme.moved (byteLength lead))) := by
    rw [scan_add, ← tokenize, h]
    rfl
  have hlast := htrailing []
  rw [List.append_nil, scan_nil] at hlast
  rw [tokenize, List.append_assoc, hleading,
    scan_append_of_ok (fun b hb => htrail b (List.mem_of_head? hb)) hmoved, hlast]
  simp [Except.map]

theorem exists_error_around {lead s trail : List Char} (hlead : ∀ c ∈ lead, isBlank c = true)
    (htrail : ∀ c ∈ trail, isBlank c = true) {e : Nat × Fault} (h : tokenize s = .error e) :
    ∃ e', tokenize (lead ++ s ++ trail) = .error e' := by
  obtain ⟨before, -, hleading⟩ := exists_scan_of_blank 0 hlead
  have hmoved : scan (0 + byteLength lead) s = .error (e.1 + byteLength lead, e.2) := by
    rw [scan_add, ← tokenize, h]
    rfl
  rw [tokenize, List.append_assoc, hleading, scan_append_of_error htrail hmoved]
  exact ⟨_, rfl⟩

/-- A text is a filter if and only if the trimmed text is, and then they are the same. -/
theorem parse_trimmed (text : String) (first : Comparison)
    (rest : List (Connective × Comparison)) :
    Expression.parse (trimmed text) = .ok ⟨trimmed text, first, rest⟩ ↔
      Expression.parse text = .ok ⟨text, first, rest⟩ := by
  obtain ⟨lead, trail, htext, hlead, htrail⟩ := exists_trim text.toList
  have htrimmed : (trimmed text).toList = trim text.toList := String.toList_ofList
  have hsplit : tokenize text.toList = tokenize (lead ++ trim text.toList ++ trail) := by
    rw [← htext]
  rw [parse_eq_ok_iff, parse_eq_ok_iff, htrimmed, hsplit]
  simp only [true_and]
  cases htokens : tokenize (trim text.toList) with
  | error e =>
    obtain ⟨e', he'⟩ := exists_error_around hlead htrail htokens
    rw [he']
    simp
  | ok tokens =>
    obtain ⟨before, behind, n, hbefore, hbehind, haround⟩ := exists_scan_around hlead htrail htokens
    rw [haround]
    simp only [Except.ok.injEq, exists_eq_left']
    rw [withoutOuterSeparators_around hbefore hbehind, withoutOuterSeparators_map_moved,
      tokensOf_map_moved]
    rfl

def Connective.between : Connective → String
  | .and => " and "
  | .or => " or "

/-- The first token of the text is a line feed or a semicolon. -/
def StartsWithSeparator (text : String) : Prop :=
  ∃ l rest, tokenize text.toList = .ok (l :: rest) ∧ l.token = .separator

/-- The last token of the text is a line feed or a semicolon. -/
def EndsWithSeparator (text : String) : Prop :=
  ∃ front l, tokenize text.toList = .ok (front ++ [l]) ∧ l.token = .separator

theorem not_startsWithSeparator {text : String} {tokens : List Lexeme}
    (htokens : tokenize text.toList = .ok tokens)
    (h : tokens.head?.map Lexeme.token ≠ some .separator) : ¬ StartsWithSeparator text := by
  rintro ⟨l, rest, hsplit, hl⟩
  rw [htokens, Except.ok.injEq] at hsplit
  rw [hsplit, List.head?_cons, Option.map_some, hl] at h
  exact h rfl

theorem not_endsWithSeparator {text : String} {tokens : List Lexeme}
    (htokens : tokenize text.toList = .ok tokens)
    (h : tokens.getLast?.map Lexeme.token ≠ some .separator) : ¬ EndsWithSeparator text := by
  rintro ⟨front, l, hsplit, hl⟩
  rw [htokens, Except.ok.injEq] at hsplit
  rw [hsplit, List.getLast?_concat, Option.map_some, hl] at h
  exact h rfl

theorem scan_between (connective : Connective) (offset : Nat) (s : List Char) :
    ∃ l : Lexeme, l.token = connective.token ∧
      scan offset (connective.between.toList ++ s) =
        (scan (offset + byteLength connective.between.toList) s).map (l :: ·) := by
  have hhead : ∀ b ∈ (' ' :: s).head?, isBlank b = true := by
    intro b hb
    cases hb
    rfl
  cases connective with
  | and =>
    have hnext : nextToken 'a' (['n', 'd'] ++ ' ' :: s) = .ok (.and, 2) :=
      nextToken_append_of_ok hhead rfl
    refine ⟨⟨.and, offset + 1, ['a', 'n', 'd']⟩, rfl, ?_⟩
    change scan offset (' ' :: 'a' :: (['n', 'd'] ++ ' ' :: s)) = _
    rw [scan_blank rfl rfl, scan_token rfl rfl hnext]
    exact congrArg _ (scan_blank rfl rfl _ s)
  | or =>
    have hnext : nextToken 'o' (['r'] ++ ' ' :: s) = .ok (.or, 1) :=
      nextToken_append_of_ok hhead rfl
    refine ⟨⟨.or, offset + 1, ['o', 'r']⟩, rfl, ?_⟩
    change scan offset (' ' :: 'o' :: (['r'] ++ ' ' :: s)) = _
    rw [scan_blank rfl rfl, scan_token rfl rfl hnext]
    exact congrArg _ (scan_blank rfl rfl _ s)

theorem tokenize_joined {e q : String} {tokens further : List Lexeme} (connective : Connective)
    (he : tokenize e.toList = .ok tokens) (hq : tokenize q.toList = .ok further) :
    ∃ (l : Lexeme) (n : Nat), l.token = connective.token ∧
      tokenize (e ++ connective.between ++ q).toList =
        .ok (tokens ++ l :: further.map (Lexeme.moved n)) := by
  obtain ⟨l, hl, hbetween⟩ := scan_between connective (0 + byteLength e.toList) q.toList
  have hhead : ∀ b ∈ (connective.between.toList ++ q.toList).head?, isBlank b = true := by
    intro b hb
    cases connective with
    | and =>
      cases hb
      rfl
    | or =>
      cases hb
      rfl
  refine ⟨l, byteLength e.toList + byteLength connective.between.toList, hl, ?_⟩
  rw [String.toList_append, String.toList_append, List.append_assoc, tokenize,
    scan_append_of_ok hhead he, hbetween, Nat.add_assoc, scan_add, ← tokenize, hq]
  rfl

theorem exists_lead_of_not_endsWithSeparator {text : String} {tokens : List Lexeme}
    (htokens : tokenize text.toList = .ok tokens) (h : ¬ EndsWithSeparator text) :
    ∃ lead, tokens = lead ++ withoutOuterSeparators tokens ∧ ∀ l ∈ lead, l.token = .separator := by
  obtain ⟨lead, trail, hsplit, hlead, htrail, -, -⟩ := exists_outerSeparators tokens
  rcases List.eq_nil_or_concat trail with rfl | ⟨front, l, rfl⟩
  · rw [List.append_nil] at hsplit
    exact ⟨lead, hsplit, hlead⟩
  · rw [List.concat_eq_append, ← List.append_assoc] at hsplit
    exact absurd ⟨_, l, hsplit ▸ htokens, htrail l (by simp)⟩ h

theorem exists_trail_of_not_startsWithSeparator {text : String} {tokens : List Lexeme}
    (htokens : tokenize text.toList = .ok tokens) (h : ¬ StartsWithSeparator text) :
    ∃ trail, tokens = withoutOuterSeparators tokens ++ trail ∧
      ∀ l ∈ trail, l.token = .separator := by
  obtain ⟨lead, trail, hsplit, hlead, htrail, -, -⟩ := exists_outerSeparators tokens
  cases lead with
  | nil => exact ⟨trail, hsplit, htrail⟩
  | cons l lead =>
    rw [List.cons_append, List.cons_append] at hsplit
    exact absurd ⟨l, _, hsplit ▸ htokens, hlead l (by simp)⟩ h

/-- Two filters with a connective between them are the comparisons of the one and of the
other, unless a separator comes between them. -/
theorem parse_joined {e q : String} {left right : Expression} (connective : Connective)
    (he : Expression.parse e = .ok left) (hq : Expression.parse q = .ok right)
    (hend : ¬ EndsWithSeparator e) (hstart : ¬ StartsWithSeparator q) :
    Expression.parse (e ++ connective.between ++ q) =
      .ok ⟨e ++ connective.between ++ q, left.first,
        left.rest ++ (connective, right.first) :: right.rest⟩ := by
  obtain ⟨-, tokens, htokens, hwritten⟩ := parse_eq_ok_iff.mp he
  obtain ⟨-, further, hfurther, hwritten'⟩ := parse_eq_ok_iff.mp hq
  obtain ⟨lead, hlead, hseparators⟩ := exists_lead_of_not_endsWithSeparator htokens hend
  obtain ⟨trail, htrail, hseparators'⟩ := exists_trail_of_not_startsWithSeparator hfurther hstart
  obtain ⟨l, n, hl, hjoined⟩ := tokenize_joined connective htokens hfurther
  let mid := withoutOuterSeparators tokens ++
    l :: (withoutOuterSeparators further).map (Lexeme.moved n)
  have hsplit : tokens ++ l :: further.map (Lexeme.moved n) =
      lead ++ mid ++ trail.map (Lexeme.moved n) := by
    conv => lhs; rw [hlead, htrail]
    simp [mid]
  have hmid : tokensOf mid = left.first.tokens ++
      furtherTokens (left.rest ++ (connective, right.first) :: right.rest) := by
    simp only [mid, tokensOf_append, hwritten]
    rw [tokensOf, List.map_cons, ← tokensOf, tokensOf_map_moved, hwritten', hl]
    simp [Expression.tokens, furtherTokens]
  have htrailing : ∀ l ∈ trail.map (Lexeme.moved n), l.token = .separator := by
    rw [List.forall_mem_map]
    exact hseparators'
  rw [parse_eq_ok_iff]
  refine ⟨rfl, _, hjoined, ?_⟩
  rw [hsplit, withoutOuterSeparators_of_written hseparators hmid htrailing, hmid]
  rfl

theorem evaluateChain_cons (source : Source) (sofar : Bool) (connective : Connective)
    (c : Comparison) (chain : List (Connective × Comparison)) :
    evaluateChain source sofar ((connective, c) :: chain) =
      (evaluateChain source sofar [(connective, c)]).bind fun outcome =>
        evaluateChain source outcome chain := by
  cases connective with
  | and =>
    cases sofar with
    | true =>
      simp only [evaluateChain]
      cases c.evaluate source <;> rfl
    | false => rfl
  | or =>
    cases sofar with
    | true => rfl
    | false =>
      simp only [evaluateChain]
      cases c.evaluate source <;> rfl

/-- A chain is evaluated further from the outcome of its first comparisons. -/
theorem evaluateChain_append (source : Source) (sofar : Bool)
    (chain further : List (Connective × Comparison)) :
    evaluateChain source sofar (chain ++ further) =
      (evaluateChain source sofar chain).bind fun outcome =>
        evaluateChain source outcome further := by
  induction chain generalizing sofar with
  | nil => rfl
  | cons link chain ih =>
    obtain ⟨connective, c⟩ := link
    rw [List.cons_append, evaluateChain_cons, evaluateChain_cons source sofar connective c chain]
    cases evaluateChain source sofar [(connective, c)] with
    | error miss => rfl
    | ok outcome => exact ih outcome

theorem evaluate_append (source : Source) (text : String) (e : Expression)
    (further : List (Connective × Comparison)) :
    Expression.evaluate source ⟨text, e.first, e.rest ++ further⟩ =
      (e.evaluate source).bind fun outcome => evaluateChain source outcome further := by
  unfold Expression.evaluate
  cases e.first.evaluate source with
  | error miss => rfl
  | ok result => exact evaluateChain_append source result e.rest further

theorem evaluateChain_singleton (source : Source) (sofar : Bool) (connective : Connective)
    (c : Comparison) :
    evaluateChain source sofar [(connective, c)] =
      if sofar = decide (connective = .and) then c.evaluate source else .ok sofar := by
  cases connective with
  | and =>
    cases sofar with
    | true => cases h : c.evaluate source <;> simp [evaluateChain, h]
    | false => rfl
  | or =>
    cases sofar with
    | true => rfl
    | false => cases h : c.evaluate source <;> simp [evaluateChain, h]

theorem evaluate_of_single {e : Expression} (h : e.rest = []) (source : Source) :
    e.evaluate source = e.first.evaluate source := by
  unfold Expression.evaluate
  rw [h]
  cases e.first.evaluate source <;> rfl

section Joined

variable (source : Source) (text : String) (e : Expression) (c : Comparison)

theorem evaluate_and_eq_true_iff :
    Expression.evaluate source ⟨text, e.first, e.rest ++ [(.and, c)]⟩ = .ok true ↔
      e.evaluate source = .ok true ∧ c.evaluate source = .ok true := by
  rw [evaluate_append]
  rcases e.evaluate source with miss | _ | _
  · simp [Except.bind]
  · simp [Except.bind, evaluateChain_singleton]
  · simp [Except.bind, evaluateChain_singleton]

theorem evaluate_or_eq_true_iff :
    Expression.evaluate source ⟨text, e.first, e.rest ++ [(.or, c)]⟩ = .ok true ↔
      e.evaluate source = .ok true ∨
        e.evaluate source = .ok false ∧ c.evaluate source = .ok true := by
  rw [evaluate_append]
  rcases e.evaluate source with miss | _ | _
  · simp [Except.bind]
  · simp [Except.bind, evaluateChain_singleton]
  · simp [Except.bind, evaluateChain_singleton]

end Joined

theorem accepts_iff (e : Expression) (source : Source) :
    e.accepts source = true ↔ e.evaluate source = .ok true := by
  unfold Expression.accepts
  cases e.evaluate source <;> simp

end Traceability.Filter
