import Traceability.Filter.Expression

/-!
A filter holds or does not hold for a source of attributes, or it reads a name that
the source lacks. Connectives apply from left to right, and a comparison that cannot
change the outcome is not evaluated. Numbers meet texts by reading the trimmed text
as a number.
-/

namespace Traceability.Filter

open Text

/-- Attribute values by name. -/
abbrev Source := String → Option String

inductive Value where
  | text (value : String)
  | number (value : Binary64)
  | list (items : List Value)

/-- The source has no value for a name. -/
structure Miss where
  identifier : String
deriving DecidableEq

def Miss.message (m : Miss) : String := "identifier '" ++ m.identifier ++ "' is not set"

mutual

def Operand.bind (source : Source) : Operand → Except Miss Value
  | .identifier name =>
      match source name with
      | some found => .ok (.text found)
      | none => .error ⟨name⟩
  | .number value => .ok (.number value)
  | .text value => .ok (.text value)
  | .list items => (Operand.bindAll source items).map .list

def Operand.bindAll (source : Source) : List Operand → Except Miss (List Value)
  | [] => .ok []
  | item :: items =>
      match item.bind source with
      | .error miss => .error miss
      | .ok value => (Operand.bindAll source items).map (value :: ·)

end

def asNumber? (text : String) : Option Binary64 := Numeral.decimal? (trim text.toList)

mutual

def Value.equal : Value → Value → Bool
  | .text a, .text b => a == b
  | .number a, .number b => a.equal b
  | .text a, .number b =>
      match asNumber? a with
      | some a => a.equal b
      | none => false
  | .number a, .text b =>
      match asNumber? b with
      | some b => b.equal a
      | none => false
  | .list a, .list b => Value.equalAll a b
  | _, _ => false

def Value.equalAll : List Value → List Value → Bool
  | [], [] => true
  | a :: as, b :: bs => a.equal b && Value.equalAll as bs
  | _, _ => false

end

mutual

/-- Values of different kinds are not comparable, except texts with numbers. -/
def Value.compare? : Value → Value → Option Ordering
  | .text a, .text b => some (Text.compare a b)
  | .number a, .number b => a.compare? b
  | .text a, .number b => (asNumber? a).bind fun a => a.compare? b
  | .number a, .text b => (asNumber? b).bind fun b => a.compare? b
  | .list a, .list b => Value.compareAll? a b
  | _, _ => none

/-- The first pair that differs decides, and then the lengths. -/
def Value.compareAll? : List Value → List Value → Option Ordering
  | [], [] => some .eq
  | [], _ :: _ => some .lt
  | _ :: _, [] => some .gt
  | a :: as, b :: bs =>
      match a.compare? b with
      | some .eq => Value.compareAll? as bs
      | decided => decided

end

def Value.holds (container needle : Value) : Bool :=
  match container, needle with
  | .list items, needle => items.any fun item => item.equal needle
  | .text container, .text needle => occursIn needle.toList container.toList
  | _, _ => false

def Comparator.apply : Comparator → Value → Value → Bool
  | .sign .eq, l, r => l.equal r
  | .sign .ne, l, r => !l.equal r
  | .sign .lt, l, r => l.compare? r == some .lt
  | .sign .le, l, r => l.compare? r == some .lt || l.compare? r == some .eq
  | .sign .gt, l, r => l.compare? r == some .gt
  | .sign .ge, l, r => l.compare? r == some .gt || l.compare? r == some .eq
  | .within, l, r => r.holds l
  | .outside, l, r => !r.holds l

def Comparison.evaluate (source : Source) (c : Comparison) : Except Miss Bool :=
  match c.left.bind source with
  | .error miss => .error miss
  | .ok left => (c.right.bind source).map (c.comparator.apply left)

def evaluateChain (source : Source) (sofar : Bool) :
    List (Connective × Comparison) → Except Miss Bool
  | [] => .ok sofar
  | (connective, comparison) :: rest =>
      match connective, sofar with
      | .and, false => evaluateChain source false rest
      | .or, true => evaluateChain source true rest
      | _, _ =>
          match comparison.evaluate source with
          | .error miss => .error miss
          | .ok result => evaluateChain source result rest

def Expression.evaluate (source : Source) (e : Expression) : Except Miss Bool :=
  match e.first.evaluate source with
  | .error miss => .error miss
  | .ok result => evaluateChain source result e.rest

/-- Sources that lack a name which is read do not match. -/
def Expression.accepts (e : Expression) (source : Source) : Bool :=
  match e.evaluate source with
  | .ok result => result
  | .error _ => false

end Traceability.Filter
