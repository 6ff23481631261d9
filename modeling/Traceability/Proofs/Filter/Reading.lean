import Traceability.Proofs.Filter.Grammar

/-!
Reading is the inverse of writing. A reader succeeds exactly on the tokens that its
result is written with, whatever follows them, and it stops right behind them.
-/

namespace Traceability.Filter

/-- The reader finds a result and leaves the rest. -/
def Reads {α : Type} {tokens : List Lexeme} (read : Read α tokens) (a : α) (rest : List Lexeme) :
    Prop :=
  ∃ h, read = .ok ⟨(a, rest), h⟩

/-- The tokens of lexemes. -/
def tokensOf (lexemes : List Lexeme) : List Token := lexemes.map Lexeme.token

theorem tokensOf_append (l l' : List Lexeme) : tokensOf (l ++ l') = tokensOf l ++ tokensOf l' :=
  List.map_append

theorem tokensOf_eq_append_iff {l : List Lexeme} {s t : List Token} :
    tokensOf l = s ++ t ↔ ∃ l₁ l₂, l = l₁ ++ l₂ ∧ tokensOf l₁ = s ∧ tokensOf l₂ = t :=
  List.map_eq_append_iff

theorem tokensOf_eq_cons_iff {l : List Lexeme} {t : Token} {s : List Token} :
    tokensOf l = t :: s ↔ ∃ x rest, l = x :: rest ∧ x.token = t ∧ tokensOf rest = s :=
  List.map_eq_cons_iff

theorem tokensOf_eq_nil_iff {l : List Lexeme} : tokensOf l = [] ↔ l = [] := List.map_eq_nil_iff

theorem tokensOf_eq_singleton_iff {l : List Lexeme} {t : Token} :
    tokensOf l = [t] ↔ ∃ x, l = [x] ∧ x.token = t :=
  List.map_eq_singleton_iff

/-- An operand starts with a token that ends no list. -/
theorem Operand.exists_tokens (x : Operand) :
    ∃ t rest, x.tokens = t :: rest ∧ t ≠ .closeList := by
  rcases x with name | value | value | _ | ⟨item, items⟩
  all_goals
    rw [Operand.tokens]
    exact ⟨_, _, rfl, by simp⟩

/-- What an operand can be that starts with a token. -/
theorem cases_readOperand {t : Lexeme} {behind rest : List Lexeme} {x : Operand}
    (h : Reads (readOperand (t :: behind)) x rest) :
    (x.tokens = [t.token] ∧ behind = rest) ∨
    t.token = .openList ∧
      ((∃ u, behind = u :: rest ∧ u.token = .closeList ∧ x = .list []) ∨
        ∃ items, x = .list items ∧ Reads (readItems behind) items rest) := by
  obtain ⟨hlt, h⟩ := h
  rw [readOperand.eq_def] at h
  simp only at h
  split at h
  · rename_i name htoken
    cases h
    exact Or.inl ⟨by rw [Operand.tokens, htoken], rfl⟩
  · rename_i value htoken
    cases h
    exact Or.inl ⟨by rw [Operand.tokens, htoken], rfl⟩
  · rename_i value htoken
    cases h
    exact Or.inl ⟨by rw [Operand.tokens, htoken], rfl⟩
  · rename_i htoken
    refine Or.inr ⟨htoken, ?_⟩
    split at h
    · contradiction
    · rename_i u behind
      split at h
      · rename_i hu
        cases h
        exact Or.inl ⟨u, rfl, hu, rfl⟩
      · split at h
        · contradiction
        · rename_i items rest' hlt' hread
          cases h
          exact Or.inr ⟨items, rfl, hlt', hread⟩
  · contradiction

theorem cases_readItems {tokens rest : List Lexeme} {found : List Operand}
    (h : Reads (readItems tokens) found rest) :
    ∃ item t behind, Reads (readOperand tokens) item (t :: behind) ∧
      ((t.token = .closeList ∧ found = [item] ∧ rest = behind) ∨
        t.token = .comma ∧ behind.length < tokens.length ∧
          ∃ items, found = item :: items ∧ Reads (readItems behind) items rest) := by
  obtain ⟨hlt, h⟩ := h
  rw [readItems] at h
  split at h
  · contradiction
  · contradiction
  · rename_i item t behind hlt' hread
    refine ⟨item, t, behind, ⟨hlt', hread⟩, ?_⟩
    split at h
    · rename_i htoken
      cases h
      exact Or.inl ⟨htoken, rfl, rfl⟩
    · rename_i htoken
      simp only [List.length_cons] at hlt'
      refine Or.inr ⟨htoken, by omega, ?_⟩
      split at h
      · contradiction
      · rename_i items rest' hlt'' hread'
        cases h
        exact ⟨items, rfl, hlt'', hread'⟩
    · contradiction

mutual

theorem tokens_of_readOperand {tokens rest : List Lexeme} {x : Operand}
    (h : Reads (readOperand tokens) x rest) :
    ∃ used, tokens = used ++ rest ∧ tokensOf used = x.tokens := by
  match tokens with
  | [] =>
    obtain ⟨hlt, -⟩ := h
    contradiction
  | t :: behind =>
    rcases cases_readOperand h with ⟨hx, rfl⟩ | ⟨htoken, ⟨u, rfl, hu, rfl⟩ | ⟨items, rfl, hitems⟩⟩
    · exact ⟨[t], rfl, hx.symm⟩
    · refine ⟨[t, u], rfl, ?_⟩
      rw [Operand.tokens, ← htoken, ← hu]
      rfl
    · obtain ⟨item, further, used, rfl, rfl, hused⟩ := tokens_of_readItems hitems
      refine ⟨t :: used, rfl, ?_⟩
      rw [Operand.tokens, ← hused, ← htoken]
      rfl
termination_by (tokens.length, 0)

/-- The items of a list are written with commas between them and end with its bracket. -/
theorem tokens_of_readItems {tokens rest : List Lexeme} {found : List Operand}
    (h : Reads (readItems tokens) found rest) :
    ∃ item items used, found = item :: items ∧ tokens = used ++ rest ∧
      tokensOf used = item.tokens ++ Operand.furtherTokens items ++ [.closeList] := by
  obtain ⟨item, t, behind, hitem, hnext⟩ := cases_readItems h
  obtain ⟨used, hused, htokens⟩ := tokens_of_readOperand hitem
  rcases hnext with ⟨htoken, rfl, rfl⟩ | ⟨htoken, hlt, items, rfl, hitems⟩
  · refine ⟨item, [], used ++ [t], rfl, by simp [hused], ?_⟩
    rw [tokensOf_append, htokens, Operand.furtherTokens, List.append_nil, ← htoken]
    rfl
  · obtain ⟨next, further, used', rfl, rfl, hused'⟩ := tokens_of_readItems hitems
    refine ⟨item, next :: further, used ++ t :: used', rfl, by simp [hused], ?_⟩
    rw [tokensOf_append, htokens, Operand.furtherTokens, List.append_assoc, List.cons_append,
      ← hused', ← htoken]
    rfl
termination_by (tokens.length, 1)

end

theorem reads_single {t : Lexeme} {x : Operand} (h : x.tokens = [t.token]) (rest : List Lexeme) :
    Reads (readOperand (t :: rest)) x rest := by
  refine ⟨by simp, ?_⟩
  rw [readOperand.eq_def]
  match x with
  | .identifier name | .number value | .text value =>
    rw [Operand.tokens, List.singleton_inj] at h
    simp only [← h]
  | .list [] | .list (item :: items) => simp [Operand.tokens] at h

theorem reads_emptyList {t u : Lexeme} (htoken : t.token = .openList) (hu : u.token = .closeList)
    (rest : List Lexeme) : Reads (readOperand (t :: u :: rest)) (.list []) rest := by
  refine ⟨by simp only [List.length_cons]; omega, ?_⟩
  rw [readOperand.eq_def]
  simp only [htoken, hu, if_true]

theorem reads_list {t u : Lexeme} {behind rest : List Lexeme} {items : List Operand}
    (htoken : t.token = .openList) (hu : u.token ≠ .closeList)
    (h : Reads (readItems (u :: behind)) items rest) :
    Reads (readOperand (t :: u :: behind)) (.list items) rest := by
  obtain ⟨hlt, hread⟩ := h
  refine ⟨Nat.lt_succ_of_lt hlt, ?_⟩
  rw [readOperand.eq_def]
  simp only [htoken]
  rw [if_neg hu, hread]

theorem reads_lastItem {tokens rest : List Lexeme} {t : Lexeme} {item : Operand}
    (h : Reads (readOperand tokens) item (t :: rest)) (htoken : t.token = .closeList) :
    Reads (readItems tokens) [item] rest := by
  obtain ⟨hlt, hread⟩ := h
  refine ⟨Nat.lt_of_succ_lt hlt, ?_⟩
  rw [readItems, hread]
  simp only [htoken]

theorem reads_nextItem {tokens behind rest : List Lexeme} {t : Lexeme} {item : Operand}
    {items : List Operand} (h : Reads (readOperand tokens) item (t :: behind))
    (htoken : t.token = .comma) (hitems : Reads (readItems behind) items rest) :
    Reads (readItems tokens) (item :: items) rest := by
  obtain ⟨hlt, hread⟩ := h
  obtain ⟨hlt', hread'⟩ := hitems
  refine ⟨Nat.lt_trans hlt' (Nat.lt_of_succ_lt hlt), ?_⟩
  rw [readItems, hread]
  simp only [htoken]
  rw [hread']

mutual

theorem reads_operand (x : Operand) (used rest : List Lexeme) (h : tokensOf used = x.tokens) :
    Reads (readOperand (used ++ rest)) x rest := by
  match x with
  | .identifier name | .number value | .text value =>
    rw [Operand.tokens, tokensOf_eq_singleton_iff] at h
    obtain ⟨t, rfl, htoken⟩ := h
    exact reads_single (by rw [Operand.tokens, htoken]) rest
  | .list [] =>
    rw [Operand.tokens, tokensOf_eq_cons_iff] at h
    obtain ⟨t, used, rfl, htoken, hused⟩ := h
    obtain ⟨u, rfl, hu⟩ := tokensOf_eq_singleton_iff.mp hused
    exact reads_emptyList htoken hu rest
  | .list (item :: items) =>
    rw [Operand.tokens, tokensOf_eq_cons_iff] at h
    obtain ⟨t, used, rfl, htoken, hused⟩ := h
    have hitems := reads_items item items used rest hused
    obtain ⟨first, further, hfirst, hne⟩ := item.exists_tokens
    rw [hfirst, List.cons_append, List.cons_append, tokensOf_eq_cons_iff] at hused
    obtain ⟨u, used, rfl, hu, -⟩ := hused
    exact reads_list htoken (by rwa [hu]) hitems
termination_by sizeOf x

theorem reads_items (item : Operand) (items : List Operand) (used rest : List Lexeme)
    (h : tokensOf used = item.tokens ++ Operand.furtherTokens items ++ [.closeList]) :
    Reads (readItems (used ++ rest)) (item :: items) rest := by
  rw [List.append_assoc, tokensOf_eq_append_iff] at h
  obtain ⟨used, behind, rfl, hused, hbehind⟩ := h
  have hitem := reads_operand item used (behind ++ rest) hused
  rw [List.append_assoc]
  match hitems : items with
  | [] =>
    rw [Operand.furtherTokens, List.nil_append, tokensOf_eq_singleton_iff] at hbehind
    obtain ⟨t, rfl, htoken⟩ := hbehind
    exact reads_lastItem hitem htoken
  | next :: further =>
    rw [Operand.furtherTokens, List.cons_append, tokensOf_eq_cons_iff] at hbehind
    obtain ⟨t, behind, rfl, htoken, hbehind⟩ := hbehind
    exact reads_nextItem hitem htoken (reads_items next further behind rest hbehind)
termination_by sizeOf item + sizeOf items + 1
decreasing_by
  · omega
  · rw [hitems, List.cons.sizeOf_spec]
    omega

end

/-- An operand is read exactly off the tokens that it is written with. -/
theorem reads_operand_iff {tokens rest : List Lexeme} {x : Operand} :
    Reads (readOperand tokens) x rest ↔
      ∃ used, tokens = used ++ rest ∧ tokensOf used = x.tokens := by
  refine ⟨tokens_of_readOperand, ?_⟩
  rintro ⟨used, rfl, h⟩
  exact reads_operand x used rest h

theorem reads_comparator_iff {tokens rest : List Lexeme} {c : Comparator} :
    Reads (readComparator tokens) c rest ↔
      ∃ used, tokens = used ++ rest ∧ tokensOf used = c.tokens := by
  constructor
  · rintro ⟨hlt, h⟩
    unfold readComparator at h
    split at h
    · contradiction
    · rename_i t behind
      split at h
      · rename_i s htoken
        cases h
        exact ⟨[t], rfl, congrArg (fun token => [token]) htoken⟩
      · rename_i htoken
        cases h
        exact ⟨[t], rfl, congrArg (fun token => [token]) htoken⟩
      · rename_i htoken
        split at h
        · contradiction
        · rename_i u behind
          split at h
          · rename_i hu
            cases h
            exact ⟨[t, u], rfl, by simp [tokensOf, htoken, hu, Comparator.tokens]⟩
          · contradiction
      all_goals contradiction
  · rintro ⟨used, rfl, h⟩
    cases c with
    | sign s =>
      obtain ⟨t, rfl, htoken⟩ := tokensOf_eq_singleton_iff.mp h
      refine ⟨by simp, ?_⟩
      simp [readComparator, htoken]
    | within =>
      obtain ⟨t, rfl, htoken⟩ := tokensOf_eq_singleton_iff.mp h
      refine ⟨by simp, ?_⟩
      simp [readComparator, htoken]
    | outside =>
      obtain ⟨t, used, rfl, htoken, hused⟩ := tokensOf_eq_cons_iff.mp h
      obtain ⟨u, rfl, hu⟩ := tokensOf_eq_singleton_iff.mp hused
      refine ⟨by simp only [List.cons_append, List.nil_append, List.length_cons]; omega, ?_⟩
      simp [readComparator, htoken, hu]

theorem Comparison.tokens_ne_nil (c : Comparison) : c.tokens ≠ [] := by
  obtain ⟨t, rest, hleft, -⟩ := c.left.exists_tokens
  simp [Comparison.tokens, hleft]

theorem cases_readComparison {tokens rest : List Lexeme} {c : Comparison}
    (h : Reads (readComparison tokens) c rest) :
    ∃ behindLeft behindComparator, Reads (readOperand tokens) c.left behindLeft ∧
      Reads (readComparator behindLeft) c.comparator behindComparator ∧
      Reads (readOperand behindComparator) c.right rest ∧
      ∀ t ∈ rest.head?, t.token.startsComparator = false := by
  obtain ⟨hlt, h⟩ := h
  unfold readComparison at h
  split at h
  · contradiction
  · rename_i left behindLeft hltLeft hleft
    split at h
    · contradiction
    · rename_i comparator behindComparator hltComparator hcomparator
      split at h
      · contradiction
      · rename_i hright
        split at h
        · cases h
          exact ⟨behindLeft, behindComparator, ⟨hltLeft, hleft⟩, ⟨hltComparator, hcomparator⟩,
            ⟨_, hright⟩, by simp⟩
        · split at h
          · contradiction
          · rename_i hstarts
            cases h
            exact ⟨behindLeft, behindComparator, ⟨hltLeft, hleft⟩, ⟨hltComparator, hcomparator⟩,
              ⟨_, hright⟩, by simpa using hstarts⟩

theorem reads_comparison {tokens behindLeft behindComparator rest : List Lexeme} {c : Comparison}
    (hleft : Reads (readOperand tokens) c.left behindLeft)
    (hcomparator : Reads (readComparator behindLeft) c.comparator behindComparator)
    (hright : Reads (readOperand behindComparator) c.right rest)
    (hend : ∀ t ∈ rest.head?, t.token.startsComparator = false) :
    Reads (readComparison tokens) c rest := by
  obtain ⟨hltLeft, hleft⟩ := hleft
  obtain ⟨hltComparator, hcomparator⟩ := hcomparator
  obtain ⟨hltRight, hright⟩ := hright
  refine ⟨by simp only at hltLeft hltComparator hltRight ⊢; omega, ?_⟩
  unfold readComparison
  rw [hleft]
  simp only
  rw [hcomparator]
  simp only
  rw [hright]
  cases rest with
  | nil => rfl
  | cons t behind =>
    have hstarts := hend t rfl
    simp [hstarts]

/-- A comparison ends where no further comparator follows. -/
theorem reads_comparison_iff {tokens rest : List Lexeme} {c : Comparison} :
    Reads (readComparison tokens) c rest ↔
      ∃ used, tokens = used ++ rest ∧ tokensOf used = c.tokens ∧
        ∀ t ∈ rest.head?, t.token.startsComparator = false := by
  constructor
  · intro h
    obtain ⟨behindLeft, behindComparator, hleft, hcomparator, hright, hend⟩ :=
      cases_readComparison h
    obtain ⟨left, rfl, htokensLeft⟩ := reads_operand_iff.mp hleft
    obtain ⟨comparator, rfl, htokensComparator⟩ := reads_comparator_iff.mp hcomparator
    obtain ⟨right, rfl, htokensRight⟩ := reads_operand_iff.mp hright
    refine ⟨left ++ comparator ++ right, by simp, ?_, hend⟩
    rw [tokensOf_append, tokensOf_append, htokensLeft, htokensComparator, htokensRight,
      Comparison.tokens]
  · rintro ⟨used, rfl, hused, hend⟩
    rw [Comparison.tokens, List.append_assoc, tokensOf_eq_append_iff] at hused
    obtain ⟨left, used, rfl, hleft, hused⟩ := hused
    obtain ⟨comparator, right, rfl, hcomparator, hright⟩ := tokensOf_eq_append_iff.mp hused
    rw [List.append_assoc, List.append_assoc]
    exact reads_comparison (reads_operand_iff.mpr ⟨left, rfl, hleft⟩)
      (reads_comparator_iff.mpr ⟨comparator, rfl, hcomparator⟩)
      (reads_operand_iff.mpr ⟨right, rfl, hright⟩) hend

end Traceability.Filter
