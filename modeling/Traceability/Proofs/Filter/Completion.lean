import Traceability.Proofs.Filter.Acceptance

/-!
Where reading stops. The tokens in front of a stop are the beginning of a filter: they are
completed to one by a few further tokens, empty texts, equals signs and closing brackets.
-/

namespace Traceability.Filter

/-- The tokens that complete the beginning of a filter. -/
inductive Closing where
  | value
  | equals
  | bracket

def Closing.token : Closing → Token
  | value => .text ""
  | equals => .sign .eq
  | bracket => .closeList

def Closing.tokens (closings : List Closing) : List Token := closings.map Closing.token

/-- The tokens in front of a stop: those before its token, or all of them. -/
def Stop.Behind (stop : Stop) (tokens used : List Lexeme) : Prop :=
  match stop with
  | .at offset _ => ∃ t rest, tokens = used ++ t :: rest ∧ t.offset = offset
  | .atEnd _ => tokens = used

theorem Stop.Behind.append {stop : Stop} {tokens used : List Lexeme}
    (h : stop.Behind tokens used) (front : List Lexeme) :
    stop.Behind (front ++ tokens) (front ++ used) := by
  cases stop with
  | «at» offset fault =>
    obtain ⟨t, rest, rfl, ht⟩ := h
    exact ⟨t, rest, by rw [List.append_assoc], ht⟩
  | atEnd fault => exact congrArg (front ++ ·) h

theorem Stop.Behind.isPrefix {stop : Stop} {tokens used : List Lexeme}
    (h : stop.Behind tokens used) : used <+: tokens := by
  cases stop with
  | «at» offset fault =>
    obtain ⟨t, rest, rfl, -⟩ := h
    exact List.prefix_append _ _
  | atEnd fault =>
    obtain rfl : tokens = used := h
    exact List.prefix_rfl

/-- The tokens in front of a stop begin a derivation. -/
def StopsWithin (Derives : List Token → Prop) (tokens : List Lexeme) (stop : Stop) : Prop :=
  ∃ used closings, stop.Behind tokens used ∧ Derives (tokensOf used ++ Closing.tokens closings)

section Stops

variable {P Q : List Token → Prop} {tokens : List Lexeme} {stop : Stop}

/-- What stands in front of the tokens begins the derivation with them. -/
theorem StopsWithin.behind (h : StopsWithin P tokens stop) (front : List Lexeme)
    (hderives : ∀ derived, P derived → Q (tokensOf front ++ derived)) :
    StopsWithin Q (front ++ tokens) stop := by
  obtain ⟨used, closings, hbehind, hused⟩ := h
  refine ⟨front ++ used, closings, hbehind.append front, ?_⟩
  rw [tokensOf_append, List.append_assoc]
  exact hderives _ hused

/-- What completes the derivation further comes last. -/
theorem StopsWithin.completed (h : StopsWithin P tokens stop) (further : List Closing)
    (hderives : ∀ derived, P derived → Q (derived ++ Closing.tokens further)) :
    StopsWithin Q tokens stop := by
  obtain ⟨used, closings, hbehind, hused⟩ := h
  refine ⟨used, closings ++ further, hbehind, ?_⟩
  rw [Closing.tokens, List.map_append, ← List.append_assoc]
  exact hderives _ hused

/-- Reading stops right behind what was read, or at its first token. -/
theorem stopsWithin_at {t : Lexeme} (front rest : List Lexeme) (fault : Fault)
    (closings : List Closing) (h : P (tokensOf front ++ Closing.tokens closings)) :
    StopsWithin P (front ++ t :: rest) (.at t.offset fault) :=
  ⟨front, closings, ⟨t, rest, rfl, rfl⟩, h⟩

theorem stopsWithin_atEnd (tokens : List Lexeme) (fault : Fault) (closings : List Closing)
    (h : P (tokensOf tokens ++ Closing.tokens closings)) :
    StopsWithin P tokens (.atEnd fault) :=
  ⟨tokens, closings, rfl, h⟩

end Stops

namespace Grammar

/-- The items of a list and its closing bracket. -/
def Items (tokens : List Token) : Prop :=
  ∃ first rest, Value first ∧ FurtherValues rest ∧ tokens = first ++ rest ++ [.closeList]

theorem Items.single {value : List Token} (h : Value value) : Items (value ++ [.closeList]) :=
  ⟨value, [], h, .nil, by rw [List.append_nil]⟩

theorem Items.cons {value items : List Token} (h : Value value) (hitems : Items items) :
    Items (value ++ .comma :: items) := by
  obtain ⟨first, rest, hfirst, hrest, rfl⟩ := hitems
  exact ⟨value, .comma :: (first ++ rest), h, .cons hfirst hrest, by simp⟩

theorem Items.value {items : List Token} (h : Items items) : Value (.openList :: items) := by
  obtain ⟨first, rest, hfirst, hrest, rfl⟩ := h
  exact .list hfirst hrest

end Grammar

section Operands

theorem cases_readOperand_error {tokens : List Lexeme} {stop : Stop}
    (h : readOperand tokens = .error stop) :
    (tokens = [] ∧ ∃ fault, stop = .atEnd fault) ∨
    (∃ t rest fault, tokens = t :: rest ∧ stop = .at t.offset fault) ∨
    ∃ t behind, tokens = t :: behind ∧ t.token = .openList ∧
      ((behind = [] ∧ ∃ fault, stop = .atEnd fault) ∨ readItems behind = .error stop) := by
  cases tokens with
  | nil =>
    rw [readOperand.eq_def] at h
    cases h
    exact Or.inl ⟨rfl, _, rfl⟩
  | cons t behind =>
    right
    rw [readOperand.eq_def] at h
    simp only at h
    split at h
    · contradiction
    · contradiction
    · contradiction
    · rename_i htoken
      right
      refine ⟨t, behind, rfl, htoken, ?_⟩
      split at h
      · cases h
        exact Or.inl ⟨rfl, _, rfl⟩
      · split at h
        · contradiction
        · split at h
          · rename_i stop' hread
            cases h
            exact Or.inr hread
          · contradiction
    · cases h
      exact Or.inl ⟨t, behind, _, rfl, rfl⟩

theorem cases_readItems_error {tokens : List Lexeme} {stop : Stop}
    (h : readItems tokens = .error stop) :
    readOperand tokens = .error stop ∨
    ∃ item rest, Reads (readOperand tokens) item rest ∧
      ((rest = [] ∧ ∃ fault, stop = .atEnd fault) ∨
        ∃ t behind, rest = t :: behind ∧
          ((∃ fault, stop = .at t.offset fault) ∨
            t.token = .comma ∧ readItems behind = .error stop)) := by
  rw [readItems] at h
  split at h
  · rename_i stop' hread
    cases h
    exact Or.inl hread
  · rename_i item hlt hread
    cases h
    exact Or.inr ⟨item, [], ⟨hlt, hread⟩, Or.inl ⟨rfl, _, rfl⟩⟩
  · rename_i item t behind hlt hread
    refine Or.inr ⟨item, t :: behind, ⟨hlt, hread⟩, Or.inr ⟨t, behind, rfl, ?_⟩⟩
    split at h
    · contradiction
    · rename_i htoken
      split at h
      · rename_i stop' hread'
        cases h
        exact Or.inr ⟨htoken, hread'⟩
      · contradiction
    · cases h
      exact Or.inl ⟨_, rfl⟩

mutual

theorem stopsWithin_readOperand {tokens : List Lexeme} {stop : Stop}
    (h : readOperand tokens = .error stop) : StopsWithin Grammar.Value tokens stop := by
  obtain ⟨rfl, fault, rfl⟩ | ⟨t, rest, fault, rfl, rfl⟩ | ⟨t, behind, rfl, htoken, hbehind⟩ :=
    cases_readOperand_error h
  · exact stopsWithin_atEnd [] fault [.value] (.text "")
  · exact stopsWithin_at [] rest fault [.value] (.text "")
  · have hopen : tokensOf [t] = [.openList] := tokensOf_eq_singleton_iff.mpr ⟨t, rfl, htoken⟩
    obtain ⟨rfl, fault, rfl⟩ | hitems := hbehind
    · apply stopsWithin_atEnd [t] fault [.bracket]
      rw [hopen]
      exact .emptyList
    · apply (stopsWithin_readItems hitems).behind [t]
      intro derived hderived
      rw [hopen]
      exact hderived.value
termination_by (tokens.length, 0)

theorem stopsWithin_readItems {tokens : List Lexeme} {stop : Stop}
    (h : readItems tokens = .error stop) : StopsWithin Grammar.Items tokens stop := by
  obtain hitem | ⟨item, rest, hitem, hrest⟩ := cases_readItems_error h
  · exact (stopsWithin_readOperand hitem).completed [.bracket] fun _ => .single
  · obtain ⟨used, rfl, hused⟩ := tokens_of_readOperand hitem
    have hvalue := Grammar.value_tokens item
    rw [← hused] at hvalue
    obtain ⟨rfl, fault, rfl⟩ | ⟨t, behind, rfl, ⟨fault, rfl⟩ | ⟨htoken, hbehind⟩⟩ := hrest
    · rw [List.append_nil]
      exact stopsWithin_atEnd used fault [.bracket] (.single hvalue)
    · exact stopsWithin_at used behind fault [.bracket] (.single hvalue)
    · have hfront : tokensOf (used ++ [t]) = tokensOf used ++ [.comma] := by
        rw [tokensOf_append, ← htoken]
        rfl
      rw [List.append_cons]
      apply (stopsWithin_readItems hbehind).behind (used ++ [t])
      intro derived hderived
      rw [hfront, List.append_assoc]
      exact .cons hvalue hderived
termination_by (tokens.length, 1)

end

end Operands

section Comparisons

/-- What is missing behind the first value of a comparison. -/
theorem term_of_value {left : List Token} (h : Grammar.Value left) :
    Grammar.Term (left ++ Closing.tokens [.equals, .value]) := by
  have hterm := Grammar.Term.compare h (.sign .eq) (.text "")
  rwa [List.append_assoc] at hterm

theorem behind_of_readComparator_error {tokens : List Lexeme} {stop : Stop}
    (h : readComparator tokens = .error stop) : stop.Behind tokens [] := by
  unfold readComparator at h
  split at h
  · cases h
    rfl
  · rename_i t behind
    split at h
    · contradiction
    · contradiction
    · split at h
      · cases h
        exact ⟨t, [], rfl, rfl⟩
      · rename_i u behind
        split at h
        · contradiction
        · cases h
          exact ⟨t, u :: behind, rfl, rfl⟩
    all_goals
      cases h
      exact ⟨t, behind, rfl, rfl⟩

theorem cases_readComparison_error {tokens : List Lexeme} {stop : Stop}
    (h : readComparison tokens = .error stop) :
    readOperand tokens = .error stop ∨
    ∃ left behindLeft, Reads (readOperand tokens) left behindLeft ∧
      (readComparator behindLeft = .error stop ∨
      ∃ comparator behindComparator, Reads (readComparator behindLeft) comparator behindComparator ∧
        (readOperand behindComparator = .error stop ∨
        ∃ right t rest fault, Reads (readOperand behindComparator) right (t :: rest) ∧
          stop = .at t.offset fault)) := by
  unfold readComparison at h
  split at h
  · rename_i stop' hleft
    cases h
    exact Or.inl hleft
  · rename_i left behindLeft hltLeft hleft
    refine Or.inr ⟨left, behindLeft, ⟨hltLeft, hleft⟩, ?_⟩
    split at h
    · rename_i stop' hcomparator
      cases h
      exact Or.inl hcomparator
    · rename_i comparator behindComparator hltComparator hcomparator
      refine Or.inr ⟨comparator, behindComparator, ⟨hltComparator, hcomparator⟩, ?_⟩
      split at h
      · rename_i stop' hright
        cases h
        exact Or.inl hright
      · rename_i right rest hltRight hright
        split at h
        · contradiction
        · split at h
          · cases h
            exact Or.inr ⟨right, _, _, _, ⟨_, hright⟩, rfl⟩
          · contradiction

theorem stopsWithin_readComparison {tokens : List Lexeme} {stop : Stop}
    (h : readComparison tokens = .error stop) : StopsWithin Grammar.Term tokens stop := by
  obtain hleft | ⟨left, behindLeft, hleft, hbehindLeft⟩ := cases_readComparison_error h
  · exact (stopsWithin_readOperand hleft).completed [.equals, .value] fun _ => term_of_value
  · obtain ⟨usedLeft, rfl, htokensLeft⟩ := reads_operand_iff.mp hleft
    have hvalue := Grammar.value_tokens left
    rw [← htokensLeft] at hvalue
    obtain hcomparator | ⟨comparator, behindComparator, hcomparator, hright⟩ := hbehindLeft
    · have hbehind := (behind_of_readComparator_error hcomparator).append usedLeft
      rw [List.append_nil] at hbehind
      exact ⟨usedLeft, [.equals, .value], hbehind, term_of_value hvalue⟩
    · obtain ⟨usedComparator, rfl, htokensComparator⟩ := reads_comparator_iff.mp hcomparator
      have hsign := (Grammar.comparatorSign_iff _).mpr ⟨comparator, htokensComparator.symm⟩
      rw [← List.append_assoc]
      obtain hright | ⟨right, t, rest, fault, hright, rfl⟩ := hright
      · apply (stopsWithin_readOperand hright).behind (usedLeft ++ usedComparator)
        intro derived hderived
        rw [tokensOf_append]
        exact .compare hvalue hsign hderived
      · obtain ⟨usedRight, rfl, htokensRight⟩ := reads_operand_iff.mp hright
        have hvalueRight := Grammar.value_tokens right
        rw [← htokensRight] at hvalueRight
        rw [← List.append_assoc]
        apply stopsWithin_at (usedLeft ++ usedComparator ++ usedRight) rest fault []
        rw [tokensOf_append, tokensOf_append, Closing.tokens, List.map_nil, List.append_nil]
        exact .compare hvalue hsign hvalueRight

theorem furtherTerms_cons (connective : Connective) {term rest : List Token}
    (hterm : Grammar.Term term) (hrest : Grammar.FurtherTerms rest) :
    Grammar.FurtherTerms (connective.token :: (term ++ rest)) := by
  cases connective with
  | and => exact .and hterm hrest
  | or => exact .or hterm hrest

theorem cases_readChain_error {t : Lexeme} {behind : List Lexeme} {stop : Stop}
    (h : readChain (t :: behind) = .error stop) :
    (∃ fault, stop = .at t.offset fault) ∨
    ∃ connective : Connective, t.token = connective.token ∧
      (readComparison behind = .error stop ∨
      ∃ c rest, Reads (readComparison behind) c rest ∧ readChain rest = .error stop) := by
  by_cases hconnective : ∃ connective : Connective, t.token = connective.token
  · obtain ⟨connective, htoken⟩ := hconnective
    refine Or.inr ⟨connective, htoken, ?_⟩
    cases hread : readComparison behind with
    | error found =>
      rw [readChain_of_error htoken hread] at h
      cases h
      exact Or.inl rfl
    | ok read =>
      obtain ⟨⟨c, rest⟩, hlt⟩ := read
      rw [readChain_of_reads htoken ⟨hlt, hread⟩] at h
      cases hrest : readChain rest with
      | ok chain =>
        rw [hrest] at h
        contradiction
      | error found =>
        rw [hrest] at h
        cases h
        exact Or.inr ⟨c, rest, ⟨hlt, rfl⟩, hrest⟩
  · rw [readChain.eq_def] at h
    simp only at h
    split at h
    · rename_i htoken
      exact absurd ⟨.and, htoken⟩ hconnective
    · rename_i htoken
      exact absurd ⟨.or, htoken⟩ hconnective
    all_goals
      cases h
      exact Or.inl ⟨_, rfl⟩

theorem stopsWithin_readChain {tokens : List Lexeme} {stop : Stop}
    (h : readChain tokens = .error stop) : StopsWithin Grammar.FurtherTerms tokens stop := by
  match tokens with
  | [] =>
    rw [readChain.eq_def] at h
    contradiction
  | t :: behind =>
    obtain ⟨fault, rfl⟩ | ⟨connective, htoken, hbehind⟩ := cases_readChain_error h
    · exact stopsWithin_at [] behind fault [] .nil
    · obtain hcomparison | ⟨c, rest, ⟨hlt, hread⟩, hrest⟩ := hbehind
      · apply (stopsWithin_readComparison hcomparison).behind [t]
        intro derived hderived
        have hfurther := furtherTerms_cons connective hderived .nil
        rw [← htoken, List.append_nil] at hfurther
        exact hfurther
      · obtain ⟨used, hused, htokens, -⟩ := reads_comparison_iff.mp ⟨hlt, hread⟩
        have hterm := (Grammar.term_iff _).mpr ⟨c, htokens.symm⟩
        have ih := stopsWithin_readChain hrest
        rw [hused]
        apply ih.behind (t :: used)
        intro derived hderived
        have hfurther := furtherTerms_cons connective hterm hderived
        rw [← htoken] at hfurther
        exact hfurther
termination_by tokens.length
decreasing_by
  simp only at hlt
  simp only [List.length_cons]
  omega

end Comparisons

/-- The tokens in front of a stop begin a filter, unless there are no tokens at all. -/
theorem stopsWithin_readTokens {tokens : List Lexeme} {stop : Stop}
    (h : readTokens tokens = .error stop) :
    (withoutOuterSeparators tokens = [] ∧ stop = .at 0 .empty) ∨
      StopsWithin Grammar.Chain (withoutOuterSeparators tokens) stop := by
  cases htokens : withoutOuterSeparators tokens with
  | nil =>
    rw [readTokens, htokens] at h
    cases h
    exact Or.inl ⟨rfl, rfl⟩
  | cons t trimmed =>
    right
    rw [readTokens_cons htokens] at h
    cases hread : readComparison (t :: trimmed) with
    | error found =>
      rw [hread] at h
      cases h
      exact (stopsWithin_readComparison hread).completed [] fun _ hderived =>
        .terms hderived .nil
    | ok read =>
      obtain ⟨⟨c, behind⟩, hlt⟩ := read
      rw [hread] at h
      simp only at h
      cases hchain : readChain behind with
      | ok chain =>
        rw [hchain] at h
        contradiction
      | error found =>
        rw [hchain] at h
        cases h
        obtain ⟨used, hused, htokensUsed, -⟩ := reads_comparison_iff.mp ⟨hlt, hread⟩
        have hterm := (Grammar.term_iff _).mpr ⟨c, htokensUsed.symm⟩
        rw [hused]
        exact (stopsWithin_readChain hchain).behind used fun _ => .terms hterm

end Traceability.Filter
