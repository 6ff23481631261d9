import Traceability.Filter.Token

/-!
Filters are comparisons joined by `and` and `or`, and the grammar is flat:

  filter     := comparison (("and" | "or") comparison)*
  comparison := value comparator value
  value      := identifier | number | text | "[" [value ("," value)*] "]"

Separators at both ends of the tokens are ignored.
-/

namespace Traceability.Filter

inductive Comparator where
  | sign (sign : Sign)
  | within
  | outside
deriving DecidableEq, Repr

inductive Connective where
  | and | or
deriving DecidableEq, Repr

inductive Operand where
  | identifier (name : String)
  | number (value : Binary64)
  | text (value : String)
  | list (items : List Operand)

structure Comparison where
  left : Operand
  comparator : Comparator
  right : Operand

structure Expression where
  source : String
  first : Comparison
  rest : List (Connective × Comparison)

structure SyntaxError where
  expression : String
  offset : Nat
  fault : Fault
deriving DecidableEq

def SyntaxError.message (e : SyntaxError) : String :=
  "Invalid filter expression '" ++ e.expression ++ "' at offset " ++ toString e.offset ++ ": " ++
    e.fault.message

/-- Where reading stops: at a token, or behind the last one. -/
inductive Stop where
  | at (offset : Nat) (fault : Fault)
  | atEnd (fault : Fault)

def Stop.offset (length : Nat) : Stop → Nat
  | .at offset _ => offset
  | .atEnd _ => length

def Stop.fault : Stop → Fault
  | .at _ fault => fault
  | .atEnd fault => fault

/-- What was read, and the tokens behind it: fewer than there were. -/
abbrev Read (α : Type) (tokens : List Lexeme) :=
  Except Stop { r : α × List Lexeme // r.2.length < tokens.length }

mutual

def readOperand (tokens : List Lexeme) : Read Operand tokens :=
  match tokens with
  | [] => .error (.atEnd .missingValue)
  | t :: rest =>
      match t.token with
      | .identifier name => .ok ⟨(.identifier name, rest), by simp⟩
      | .number value => .ok ⟨(.number value, rest), by simp⟩
      | .text value => .ok ⟨(.text value, rest), by simp⟩
      | .openList =>
          match rest with
          | [] => .error (.atEnd .missingValue)
          | u :: behind =>
              if u.token = .closeList then .ok ⟨(.list [], behind), by simp only [List.length_cons]; omega⟩
              else
                match readItems (u :: behind) with
                | .error stop => .error stop
                | .ok ⟨(items, behind), h⟩ => .ok ⟨(.list items, behind), by simp at h ⊢; omega⟩
      | _ => .error (.at t.offset (.unexpectedValue t.text))
termination_by (tokens.length, 0)

/-- The items of a list up to its closing bracket. -/
def readItems (tokens : List Lexeme) : Read (List Operand) tokens :=
  match readOperand tokens with
  | .error stop => .error stop
  | .ok ⟨(_, []), _⟩ => .error (.atEnd .unterminatedList)
  | .ok ⟨(item, t :: rest), h⟩ =>
      match t.token with
      | .closeList => .ok ⟨([item], rest), by simp at h ⊢; omega⟩
      | .comma =>
          have : rest.length < tokens.length := by simp at h; omega
          match readItems rest with
          | .error stop => .error stop
          | .ok ⟨(items, rest'), h'⟩ => .ok ⟨(item :: items, rest'), by simp at h h' ⊢; omega⟩
      | _ => .error (.at t.offset (.unexpectedInList t.text))
termination_by (tokens.length, 1)

end

def readComparator (tokens : List Lexeme) : Read Comparator tokens :=
  match tokens with
  | [] => .error (.atEnd .missingComparator)
  | t :: rest =>
      match t.token with
      | .sign s => .ok ⟨(.sign s, rest), by simp⟩
      | .within => .ok ⟨(.within, rest), by simp⟩
      | .not =>
          match rest with
          | [] => .error (.at t.offset .missingIn)
          | u :: behind =>
              if u.token = .within then .ok ⟨(.outside, behind), by simp only [List.length_cons]; omega⟩
              else .error (.at t.offset .missingIn)
      | .identifier word => .error (.at t.offset (.invalidOperator word))
      | .separator | .comma => .error (.at t.offset .severalFilters)
      | _ => .error (.at t.offset (.unexpectedOperator t.text))

def Token.startsComparator : Token → Bool
  | sign _ | within | not => true
  | _ => false

def readComparison (tokens : List Lexeme) : Read Comparison tokens :=
  match readOperand tokens with
  | .error stop => .error stop
  | .ok ⟨(left, rest), h⟩ =>
      match readComparator rest with
      | .error stop => .error stop
      | .ok ⟨(comparator, rest'), h'⟩ =>
          match readOperand rest' with
          | .error stop => .error stop
          | .ok ⟨(right, rest''), h''⟩ =>
              match rest'' with
              | [] => .ok ⟨(⟨left, comparator, right⟩, []), by simp at h h' h'' ⊢; omega⟩
              | t :: behind =>
                  if t.token.startsComparator then .error (.at t.offset .severalComparators)
                  else .ok ⟨(⟨left, comparator, right⟩, t :: behind), by simp at h h' h'' ⊢; omega⟩

/-- Comparisons, each behind its connective, up to the last token. -/
def readChain (tokens : List Lexeme) : Except Stop (List (Connective × Comparison)) :=
  match tokens with
  | [] => .ok []
  | t :: rest =>
      let behind (connective : Connective) : Except Stop (List (Connective × Comparison)) :=
        match readComparison rest with
        | .error stop => .error stop
        | .ok ⟨(comparison, rest'), _⟩ =>
            (readChain rest').map ((connective, comparison) :: ·)
      match t.token with
      | .and => behind .and
      | .or => behind .or
      | .separator | .comma => .error (.at t.offset .severalFilters)
      | _ => .error (.at t.offset (.unexpectedAfterComparison t.text))
termination_by tokens.length
decreasing_by exact Nat.lt_succ_of_lt (by assumption)

def isSeparatorLexeme (l : Lexeme) : Bool := decide (l.token = .separator)

def withoutOuterSeparators (tokens : List Lexeme) : List Lexeme :=
  ((tokens.dropWhile isSeparatorLexeme).reverse.dropWhile isSeparatorLexeme).reverse

def readTokens (tokens : List Lexeme) :
    Except Stop (Comparison × List (Connective × Comparison)) :=
  match withoutOuterSeparators tokens with
  | [] => .error (.at 0 .empty)
  | t :: rest =>
      match readComparison (t :: rest) with
      | .error stop => .error stop
      | .ok ⟨(first, behind), _⟩ => (readChain behind).map fun chain => (first, chain)

def Expression.parse (text : String) : Except SyntaxError Expression :=
  match tokenize text.toList with
  | .error (offset, fault) => .error ⟨text, offset, fault⟩
  | .ok tokens =>
      match readTokens tokens with
      | .error stop => .error ⟨text, stop.offset (byteLength text.toList), stop.fault⟩
      | .ok (first, rest) => .ok ⟨text, first, rest⟩

mutual

def Operand.identifiers : Operand → List String
  | .identifier name => [name]
  | .number _ => []
  | .text _ => []
  | .list items => Operand.identifiersOfAll items

def Operand.identifiersOfAll : List Operand → List String
  | [] => []
  | item :: items => item.identifiers ++ Operand.identifiersOfAll items

end

def Comparison.identifiers (c : Comparison) : List String :=
  c.left.identifiers ++ c.right.identifiers

/-- Every identifier that the filter reads, in order, repetitions kept. -/
def Expression.identifiers (e : Expression) : List String :=
  e.first.identifiers ++ e.rest.flatMap fun (_, c) => c.identifiers

end Traceability.Filter
