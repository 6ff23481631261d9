import Traceability.Proofs.Filter.Reading

/-!
Whole filters. No written token is a separator, so that only the separators around a
filter are dropped before it is read. What is left is read as a filter exactly if it is
written for that filter, and so exactly if the grammar derives it.
-/

namespace Traceability.Filter

theorem startsComparator_token (connective : Connective) :
    connective.token.startsComparator = false := by
  cases connective <;> rfl

section Connective

variable {t : Lexeme} {connective : Connective} (htoken : t.token = connective.token)
variable {rest : List Lexeme}
include htoken

theorem readChain_of_reads {c : Comparison} {behind : List Lexeme}
    (hread : Reads (readComparison rest) c behind) :
    readChain (t :: rest) = (readChain behind).map ((connective, c) :: ·) := by
  obtain ⟨hlt, hread⟩ := hread
  rw [readChain.eq_def]
  cases connective with
  | and => simp only [htoken, Connective.token, hread]
  | or => simp only [htoken, Connective.token, hread]

theorem readChain_of_error {stop : Stop} (hread : readComparison rest = .error stop) :
    readChain (t :: rest) = .error stop := by
  rw [readChain.eq_def]
  cases connective with
  | and => simp only [htoken, Connective.token, hread]
  | or => simp only [htoken, Connective.token, hread]

end Connective

theorem exists_connective {t : Lexeme} {rest : List Lexeme}
    {chain : List (Connective × Comparison)} (h : readChain (t :: rest) = .ok chain) :
    ∃ connective : Connective, t.token = connective.token := by
  rw [readChain.eq_def] at h
  simp only at h
  split at h
  · rename_i htoken
    exact ⟨.and, htoken⟩
  · rename_i htoken
    exact ⟨.or, htoken⟩
  all_goals contradiction

theorem cases_readChain {t : Lexeme} {behind : List Lexeme}
    {chain : List (Connective × Comparison)} (h : readChain (t :: behind) = .ok chain) :
    ∃ connective c rest further, t.token = connective.token ∧
      Reads (readComparison behind) c rest ∧ readChain rest = .ok further ∧
      chain = (connective, c) :: further := by
  obtain ⟨connective, htoken⟩ := exists_connective h
  cases hread : readComparison behind with
  | error stop =>
    rw [readChain_of_error htoken hread] at h
    contradiction
  | ok read =>
    obtain ⟨⟨c, rest⟩, hlt⟩ := read
    have hreads : Reads (readComparison behind) c rest := ⟨hlt, hread⟩
    rw [readChain_of_reads htoken hreads] at h
    cases hrest : readChain rest with
    | error stop =>
      rw [hrest] at h
      contradiction
    | ok further =>
      rw [hrest] at h
      cases h
      exact ⟨connective, c, rest, further, htoken, ⟨hlt, rfl⟩, hrest, rfl⟩

theorem tokens_of_readChain {tokens : List Lexeme} {chain : List (Connective × Comparison)}
    (h : readChain tokens = .ok chain) : tokensOf tokens = furtherTokens chain := by
  match tokens with
  | [] =>
    rw [readChain.eq_def] at h
    cases h
    rfl
  | t :: behind =>
    obtain ⟨connective, c, rest, further, htoken, ⟨hlt, hread⟩, hrest, rfl⟩ := cases_readChain h
    obtain ⟨used, hbehind, hused, -⟩ := reads_comparison_iff.mp ⟨hlt, hread⟩
    have ih := tokens_of_readChain hrest
    rw [furtherTokens_cons, ← ih, ← hused, ← htoken, ← tokensOf_append, ← hbehind]
    rfl
termination_by tokens.length
decreasing_by
  simp only at hlt
  simp only [List.length_cons]
  omega

/-- A chain behind a comparison goes on with no comparator. -/
theorem startsComparator_of_furtherTokens {tokens : List Lexeme}
    {chain : List (Connective × Comparison)} (h : tokensOf tokens = furtherTokens chain) :
    ∀ t ∈ tokens.head?, t.token.startsComparator = false := by
  cases chain with
  | nil =>
    rw [furtherTokens_nil, tokensOf_eq_nil_iff] at h
    simp [h]
  | cons link chain =>
    rw [furtherTokens_cons, tokensOf_eq_cons_iff] at h
    obtain ⟨t, rest, rfl, htoken, -⟩ := h
    simp [htoken, startsComparator_token]

theorem reads_chain (chain : List (Connective × Comparison)) (tokens : List Lexeme)
    (h : tokensOf tokens = furtherTokens chain) : readChain tokens = .ok chain := by
  induction chain generalizing tokens with
  | nil =>
    rw [furtherTokens_nil, tokensOf_eq_nil_iff] at h
    rw [h, readChain.eq_def]
  | cons link chain ih =>
    obtain ⟨connective, c⟩ := link
    rw [furtherTokens_cons, tokensOf_eq_cons_iff] at h
    obtain ⟨t, behind, rfl, htoken, hbehind⟩ := h
    obtain ⟨used, rest, rfl, hused, hrest⟩ := tokensOf_eq_append_iff.mp hbehind
    have hread := reads_comparison_iff.mpr
      ⟨used, rfl, hused, startsComparator_of_furtherTokens hrest⟩
    rw [readChain_of_reads htoken hread, ih rest hrest]
    rfl

/-- A chain is read off the tokens that it is written with, to the last one. -/
theorem readChain_eq_ok_iff {tokens : List Lexeme} {chain : List (Connective × Comparison)} :
    readChain tokens = .ok chain ↔ tokensOf tokens = furtherTokens chain :=
  ⟨tokens_of_readChain, reads_chain chain tokens⟩

theorem isSeparatorLexeme_iff {l : Lexeme} : isSeparatorLexeme l = true ↔ l.token = .separator :=
  decide_eq_true_iff

theorem dropWhile_separators_append {lead behind : List Lexeme}
    (hlead : ∀ l ∈ lead, l.token = .separator) (hbehind : ∀ l ∈ behind.head?, l.token ≠ .separator) :
    (lead ++ behind).dropWhile isSeparatorLexeme = behind := by
  rw [List.dropWhile_append_of_pos fun l hl => isSeparatorLexeme_iff.mpr (hlead l hl)]
  cases behind with
  | nil => rfl
  | cons l behind =>
    exact List.dropWhile_cons_of_neg (by simpa [isSeparatorLexeme_iff] using hbehind)

theorem token_of_mem_takeWhile {tokens : List Lexeme} {l : Lexeme}
    (h : l ∈ tokens.takeWhile isSeparatorLexeme) : l.token = .separator :=
  isSeparatorLexeme_iff.mp (List.all_eq_true.mp (List.all_takeWhile ..) l h)

theorem token_of_head?_dropWhile {tokens : List Lexeme} {l : Lexeme}
    (h : (tokens.dropWhile isSeparatorLexeme).head? = some l) : l.token ≠ .separator := by
  have hnot := List.head?_dropWhile_not isSeparatorLexeme tokens
  rw [h] at hnot
  rwa [Ne, ← isSeparatorLexeme_iff, Bool.not_eq_true]

/-- What is dropped are the separators at both ends, and all of them. -/
theorem exists_outerSeparators (tokens : List Lexeme) :
    ∃ lead trail, tokens = lead ++ withoutOuterSeparators tokens ++ trail ∧
      (∀ l ∈ lead, l.token = .separator) ∧ (∀ l ∈ trail, l.token = .separator) ∧
      (∀ l ∈ (withoutOuterSeparators tokens).head?, l.token ≠ .separator) ∧
      ∀ l ∈ (withoutOuterSeparators tokens).getLast?, l.token ≠ .separator := by
  have hrest : tokens.dropWhile isSeparatorLexeme = withoutOuterSeparators tokens ++
      ((tokens.dropWhile isSeparatorLexeme).reverse.takeWhile isSeparatorLexeme).reverse := by
    rw [withoutOuterSeparators, ← List.reverse_append, List.takeWhile_append_dropWhile,
      List.reverse_reverse]
  refine ⟨tokens.takeWhile isSeparatorLexeme,
    ((tokens.dropWhile isSeparatorLexeme).reverse.takeWhile isSeparatorLexeme).reverse,
    ?_, fun l hl => token_of_mem_takeWhile hl, fun l hl => ?_, fun l hl => ?_, fun l hl => ?_⟩
  · rw [List.append_assoc, ← hrest, List.takeWhile_append_dropWhile]
  · exact token_of_mem_takeWhile (List.mem_reverse.mp hl)
  · have hhead : (tokens.dropWhile isSeparatorLexeme).head? = some l := by
      rw [hrest, List.head?_append, Option.mem_def.mp hl, Option.some_or]
    exact token_of_head?_dropWhile hhead
  · rw [withoutOuterSeparators, List.getLast?_reverse] at hl
    exact token_of_head?_dropWhile hl
/-- Tokens without separators lose the separators around them, and nothing else. -/
theorem withoutOuterSeparators_append {lead mid trail : List Lexeme}
    (hlead : ∀ l ∈ lead, l.token = .separator) (hmid : ∀ l ∈ mid, l.token ≠ .separator)
    (htrail : ∀ l ∈ trail, l.token = .separator) (hne : mid ≠ []) :
    withoutOuterSeparators (lead ++ mid ++ trail) = mid := by
  have hhead : ∀ l ∈ (mid ++ trail).head?, l.token ≠ .separator := by
    intro l hl
    obtain ⟨x, mid, rfl⟩ := List.exists_cons_of_ne_nil hne
    cases hl
    exact hmid l List.mem_cons_self
  have hlast : ∀ l ∈ mid.reverse.head?, l.token ≠ .separator := by
    intro l hl
    exact hmid l (List.mem_reverse.mp (List.mem_of_head? hl))
  rw [withoutOuterSeparators, List.append_assoc, dropWhile_separators_append hlead hhead,
    List.reverse_append, dropWhile_separators_append (by simpa using htrail) hlast,
    List.reverse_reverse]

mutual

theorem Operand.separator_notMem : ∀ x : Operand, Token.separator ∉ x.tokens
  | .identifier _ | .number _ | .text _ | .list [] => by
    rw [Operand.tokens]
    simp
  | .list (item :: items) => by
    have hitem := item.separator_notMem
    have hitems := Operand.separator_notMem_furtherTokens items
    rw [Operand.tokens]
    simp [hitem, hitems]

theorem Operand.separator_notMem_furtherTokens :
    ∀ items : List Operand, Token.separator ∉ Operand.furtherTokens items
  | [] => by
    rw [Operand.furtherTokens]
    simp
  | item :: items => by
    have hitem := item.separator_notMem
    have hitems := Operand.separator_notMem_furtherTokens items
    rw [Operand.furtherTokens]
    simp [hitem, hitems]

end

theorem Comparison.separator_notMem (c : Comparison) : Token.separator ∉ c.tokens := by
  have hleft := c.left.separator_notMem
  have hright := c.right.separator_notMem
  rw [Comparison.tokens]
  cases hcomparator : c.comparator with
  | sign s => simp [hleft, hright, Comparator.tokens]
  | within => simp [hleft, hright, Comparator.tokens]
  | outside => simp [hleft, hright, Comparator.tokens]

theorem separator_notMem_furtherTokens (chain : List (Connective × Comparison)) :
    Token.separator ∉ furtherTokens chain := by
  induction chain with
  | nil => simp [furtherTokens_nil]
  | cons link chain ih =>
    obtain ⟨connective, c⟩ := link
    rw [furtherTokens_cons]
    cases connective with
    | and => simp [Connective.token, c.separator_notMem, ih]
    | or => simp [Connective.token, c.separator_notMem, ih]

theorem notMem_written (first : Comparison) (rest : List (Connective × Comparison)) :
    Token.separator ∉ first.tokens ++ furtherTokens rest := by
  simp [first.separator_notMem, separator_notMem_furtherTokens]

theorem written_ne_nil (first : Comparison) (rest : List (Connective × Comparison)) :
    first.tokens ++ furtherTokens rest ≠ [] :=
  List.append_ne_nil_of_left_ne_nil first.tokens_ne_nil _

theorem readTokens_cons {tokens rest : List Lexeme} {t : Lexeme}
    (h : withoutOuterSeparators tokens = t :: rest) :
    readTokens tokens =
      match readComparison (t :: rest) with
      | .error stop => .error stop
      | .ok ⟨(first, behind), _⟩ => (readChain behind).map fun chain => (first, chain) := by
  rw [readTokens, h]
  simp only
  cases readComparison (t :: rest) with
  | error stop => rfl
  | ok read => rfl

theorem cases_readTokens {tokens : List Lexeme} {first : Comparison}
    {rest : List (Connective × Comparison)} (h : readTokens tokens = .ok (first, rest)) :
    ∃ behind, Reads (readComparison (withoutOuterSeparators tokens)) first behind ∧
      readChain behind = .ok rest := by
  cases htokens : withoutOuterSeparators tokens with
  | nil =>
    rw [readTokens, htokens] at h
    contradiction
  | cons t trimmed =>
    rw [readTokens_cons htokens] at h
    split at h
    · contradiction
    · rename_i c behind hlt hread
      cases hchain : readChain behind with
      | error stop =>
        rw [hchain] at h
        contradiction
      | ok chain =>
        rw [hchain] at h
        cases h
        exact ⟨behind, ⟨hlt, hread⟩, hchain⟩

/-- A filter is read exactly off the tokens that it is written with. -/
theorem readTokens_eq_ok_iff {tokens : List Lexeme} {first : Comparison}
    {rest : List (Connective × Comparison)} :
    readTokens tokens = .ok (first, rest) ↔
      tokensOf (withoutOuterSeparators tokens) = first.tokens ++ furtherTokens rest := by
  constructor
  · intro h
    obtain ⟨behind, hcomparison, hchain⟩ := cases_readTokens h
    obtain ⟨used, hused, htokens, -⟩ := reads_comparison_iff.mp hcomparison
    rw [hused, tokensOf_append, htokens, readChain_eq_ok_iff.mp hchain]
  · intro h
    obtain ⟨used, behind, hused, hfirst, hrest⟩ := tokensOf_eq_append_iff.mp h
    have hcomparison := reads_comparison_iff.mpr
      ⟨used, rfl, hfirst, startsComparator_of_furtherTokens hrest⟩
    cases htokens : used ++ behind with
    | nil =>
      rw [hused, htokens] at h
      exact absurd h.symm (written_ne_nil first rest)
    | cons t trimmed =>
      rw [htokens] at hcomparison
      obtain ⟨hlt, hread⟩ := hcomparison
      rw [readTokens_cons (hused.trans htokens), hread]
      simp only
      rw [readChain_eq_ok_iff.mpr hrest]
      rfl

theorem withoutOuterSeparators_of_written {lead mid trail : List Lexeme} {first : Comparison}
    {rest : List (Connective × Comparison)} (hlead : ∀ l ∈ lead, l.token = .separator)
    (hmid : tokensOf mid = first.tokens ++ furtherTokens rest)
    (htrail : ∀ l ∈ trail, l.token = .separator) :
    withoutOuterSeparators (lead ++ mid ++ trail) = mid := by
  refine withoutOuterSeparators_append hlead ?_ htrail ?_
  · intro l hl hseparator
    have hmem : Token.separator ∈ tokensOf mid :=
      List.mem_map.mpr ⟨l, hl, hseparator⟩
    rw [hmid] at hmem
    exact notMem_written first rest hmem
  · rintro rfl
    exact written_ne_nil first rest hmid.symm

theorem parse_eq_ok_iff {text : String} {e : Expression} :
    Expression.parse text = .ok e ↔
      e.source = text ∧ ∃ tokens, tokenize text.toList = .ok tokens ∧
        tokensOf (withoutOuterSeparators tokens) = e.tokens := by
  rw [Expression.parse]
  cases htokens : tokenize text.toList with
  | error fault => simp
  | ok tokens =>
    simp only [Except.ok.injEq, exists_eq_left']
    obtain ⟨source, first, rest⟩ := e
    rw [Expression.tokens, ← readTokens_eq_ok_iff]
    cases hread : readTokens tokens with
    | error stop => simp
    | ok filter =>
      obtain ⟨first', rest'⟩ := filter
      simp [eq_comm]

/-- After the separators at both ends are dropped, exactly the sequences of the grammar are
read, each as the filter that it is written for. -/
theorem reading_iff_grammar :
    (∀ tokens, ∃ lead trail, tokens = lead ++ withoutOuterSeparators tokens ++ trail ∧
      (∀ l ∈ lead, l.token = .separator) ∧ (∀ l ∈ trail, l.token = .separator) ∧
      (∀ l ∈ (withoutOuterSeparators tokens).head?, l.token ≠ .separator) ∧
      ∀ l ∈ (withoutOuterSeparators tokens).getLast?, l.token ≠ .separator) ∧
    (∀ tokens, (∃ filter, readTokens tokens = .ok filter) ↔
      Grammar.Chain (tokensOf (withoutOuterSeparators tokens))) ∧
    (∀ tokens first rest, readTokens tokens = .ok (first, rest) →
      first.tokens ++ furtherTokens rest = tokensOf (withoutOuterSeparators tokens)) ∧
    (∀ lead mid trail first rest, (∀ l ∈ lead, l.token = .separator) →
      (∀ l ∈ trail, l.token = .separator) → tokensOf mid = first.tokens ++ furtherTokens rest →
      readTokens (lead ++ mid ++ trail) = .ok (first, rest)) ∧
    ∀ text e, Expression.parse text = .ok e ↔
      e.source = text ∧ ∃ tokens, tokenize text.toList = .ok tokens ∧
        tokensOf (withoutOuterSeparators tokens) = e.tokens := by
  refine ⟨exists_outerSeparators, fun tokens => ?_,
    fun tokens first rest h => (readTokens_eq_ok_iff.mp h).symm, ?_, fun _ _ => parse_eq_ok_iff⟩
  · rw [Grammar.chain_iff]
    constructor
    · rintro ⟨⟨first, rest⟩, h⟩
      exact ⟨first, rest, (readTokens_eq_ok_iff.mp h).symm⟩
    · rintro ⟨first, rest, h⟩
      exact ⟨(first, rest), readTokens_eq_ok_iff.mpr h.symm⟩
  · intro lead mid trail first rest hlead htrail hmid
    rw [readTokens_eq_ok_iff, withoutOuterSeparators_of_written hlead hmid htrail, hmid]

end Traceability.Filter
