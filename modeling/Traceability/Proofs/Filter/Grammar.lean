import Traceability.Filter.Expression

/-!
The grammar of filters as a relation on sequences of tokens, and the tokens that a
filter is written with. The sequences of the grammar are those that are written for
some filter.
-/

namespace Traceability.Filter

namespace Grammar

mutual

inductive Value : List Token → Prop
  | identifier (name : String) : Value [.identifier name]
  | number (value : Binary64) : Value [.number value]
  | text (value : String) : Value [.text value]
  | emptyList : Value [.openList, .closeList]
  | list {first rest : List Token} (hfirst : Value first) (hrest : FurtherValues rest) :
      Value (.openList :: (first ++ rest ++ [.closeList]))

/-- Values, each behind a comma. -/
inductive FurtherValues : List Token → Prop
  | nil : FurtherValues []
  | cons {value rest : List Token} (hvalue : Value value) (hrest : FurtherValues rest) :
      FurtherValues (.comma :: (value ++ rest))

end

inductive ComparatorSign : List Token → Prop
  | sign (s : Sign) : ComparatorSign [.sign s]
  | within : ComparatorSign [.within]
  | outside : ComparatorSign [.not, .within]

inductive Term : List Token → Prop
  | compare {left sign right : List Token} (hleft : Value left) (hsign : ComparatorSign sign)
      (hright : Value right) : Term (left ++ sign ++ right)

/-- Terms, each behind a connective. -/
inductive FurtherTerms : List Token → Prop
  | nil : FurtherTerms []
  | and {term rest : List Token} (hterm : Term term) (hrest : FurtherTerms rest) :
      FurtherTerms (.and :: (term ++ rest))
  | or {term rest : List Token} (hterm : Term term) (hrest : FurtherTerms rest) :
      FurtherTerms (.or :: (term ++ rest))

inductive Chain : List Token → Prop
  | terms {first rest : List Token} (hfirst : Term first) (hrest : FurtherTerms rest) :
      Chain (first ++ rest)

end Grammar

mutual

def Operand.tokens : Operand → List Token
  | .identifier name => [.identifier name]
  | .number value => [.number value]
  | .text value => [.text value]
  | .list [] => [.openList, .closeList]
  | .list (item :: items) =>
      .openList :: (item.tokens ++ Operand.furtherTokens items ++ [.closeList])

/-- The tokens of further items of a list, each behind a comma. -/
def Operand.furtherTokens : List Operand → List Token
  | [] => []
  | item :: items => .comma :: (item.tokens ++ Operand.furtherTokens items)

end

def Comparator.tokens : Comparator → List Token
  | .sign s => [.sign s]
  | .within => [.within]
  | .outside => [.not, .within]

def Connective.token : Connective → Token
  | .and => .and
  | .or => .or

def Comparison.tokens (c : Comparison) : List Token :=
  c.left.tokens ++ c.comparator.tokens ++ c.right.tokens

/-- The tokens of further comparisons, each behind its connective. -/
def furtherTokens (chain : List (Connective × Comparison)) : List Token :=
  chain.flatMap fun (connective, comparison) => connective.token :: comparison.tokens

theorem furtherTokens_nil : furtherTokens [] = [] := rfl

theorem furtherTokens_cons (connective : Connective) (c : Comparison)
    (chain : List (Connective × Comparison)) :
    furtherTokens ((connective, c) :: chain) =
      connective.token :: (c.tokens ++ furtherTokens chain) :=
  List.flatMap_cons

def Expression.tokens (e : Expression) : List Token := e.first.tokens ++ furtherTokens e.rest

namespace Grammar

mutual

theorem value_tokens : ∀ x : Operand, Value x.tokens
  | .identifier name => by simpa [Operand.tokens] using Value.identifier name
  | .number value => by simpa [Operand.tokens] using Value.number value
  | .text value => by simpa [Operand.tokens] using Value.text value
  | .list [] => by simpa [Operand.tokens] using Value.emptyList
  | .list (item :: items) => by
      rw [Operand.tokens]
      exact Value.list (value_tokens item) (furtherValues_tokens items)

theorem furtherValues_tokens : ∀ items : List Operand, FurtherValues (Operand.furtherTokens items)
  | [] => by simpa [Operand.furtherTokens] using FurtherValues.nil
  | item :: items => by
      rw [Operand.furtherTokens]
      exact FurtherValues.cons (value_tokens item) (furtherValues_tokens items)

end

mutual

theorem exists_operand {tokens : List Token} : Value tokens → ∃ x : Operand, x.tokens = tokens
  | .identifier name => ⟨.identifier name, by rw [Operand.tokens]⟩
  | .number value => ⟨.number value, by rw [Operand.tokens]⟩
  | .text value => ⟨.text value, by rw [Operand.tokens]⟩
  | .emptyList => ⟨.list [], by rw [Operand.tokens]⟩
  | .list hfirst hrest => by
      obtain ⟨item, hitem⟩ := exists_operand hfirst
      obtain ⟨items, hitems⟩ := exists_operands hrest
      exact ⟨.list (item :: items), by rw [Operand.tokens, hitem, hitems]⟩

theorem exists_operands {tokens : List Token} :
    FurtherValues tokens → ∃ items : List Operand, Operand.furtherTokens items = tokens
  | .nil => ⟨[], by rw [Operand.furtherTokens]⟩
  | .cons hvalue hrest => by
      obtain ⟨item, hitem⟩ := exists_operand hvalue
      obtain ⟨items, hitems⟩ := exists_operands hrest
      exact ⟨item :: items, by rw [Operand.furtherTokens, hitem, hitems]⟩

end

theorem value_iff (tokens : List Token) : Value tokens ↔ ∃ x : Operand, x.tokens = tokens := by
  refine ⟨exists_operand, ?_⟩
  rintro ⟨x, rfl⟩
  exact value_tokens x

theorem comparatorSign_iff (tokens : List Token) :
    ComparatorSign tokens ↔ ∃ c : Comparator, c.tokens = tokens := by
  constructor
  · rintro (s | _ | _)
    · exact ⟨.sign s, rfl⟩
    · exact ⟨.within, rfl⟩
    · exact ⟨.outside, rfl⟩
  · rintro ⟨s | _ | _, rfl⟩
    · exact ComparatorSign.sign s
    · exact ComparatorSign.within
    · exact ComparatorSign.outside

theorem term_iff (tokens : List Token) : Term tokens ↔ ∃ c : Comparison, c.tokens = tokens := by
  constructor
  · rintro ⟨hleft, hsign, hright⟩
    obtain ⟨left, rfl⟩ := (value_iff _).mp hleft
    obtain ⟨comparator, rfl⟩ := (comparatorSign_iff _).mp hsign
    obtain ⟨right, rfl⟩ := (value_iff _).mp hright
    exact ⟨⟨left, comparator, right⟩, rfl⟩
  · rintro ⟨c, rfl⟩
    exact Term.compare (value_tokens c.left) ((comparatorSign_iff _).mpr ⟨c.comparator, rfl⟩)
      (value_tokens c.right)

theorem furtherTerms_iff (tokens : List Token) :
    FurtherTerms tokens ↔
      ∃ chain : List (Connective × Comparison), Filter.furtherTokens chain = tokens := by
  constructor
  · intro h
    induction h with
    | nil => exact ⟨[], rfl⟩
    | and hterm _ ih =>
      obtain ⟨c, rfl⟩ := (term_iff _).mp hterm
      obtain ⟨chain, rfl⟩ := ih
      exact ⟨(.and, c) :: chain, rfl⟩
    | or hterm _ ih =>
      obtain ⟨c, rfl⟩ := (term_iff _).mp hterm
      obtain ⟨chain, rfl⟩ := ih
      exact ⟨(.or, c) :: chain, rfl⟩
  · rintro ⟨chain, rfl⟩
    induction chain with
    | nil => exact FurtherTerms.nil
    | cons link chain ih =>
      obtain ⟨connective, c⟩ := link
      have hterm := (term_iff _).mpr ⟨c, rfl⟩
      cases connective with
      | and => exact FurtherTerms.and hterm ih
      | or => exact FurtherTerms.or hterm ih

/-- The grammar derives what filters are written with. -/
theorem chain_iff (tokens : List Token) :
    Chain tokens ↔ ∃ first rest, Comparison.tokens first ++ Filter.furtherTokens rest = tokens := by
  constructor
  · rintro ⟨hfirst, hrest⟩
    obtain ⟨first, rfl⟩ := (term_iff _).mp hfirst
    obtain ⟨rest, rfl⟩ := (furtherTerms_iff _).mp hrest
    exact ⟨first, rest, rfl⟩
  · rintro ⟨first, rest, rfl⟩
    exact Chain.terms ((term_iff _).mpr ⟨first, rfl⟩) ((furtherTerms_iff _).mpr ⟨rest, rfl⟩)

end Grammar

end Traceability.Filter
