import Traceability.Toml.Value

/-!
Words that stand for a boolean, an integer, a float, a date or a time. Digits may be
grouped by underscores, each between two digits. An integer has at most 128 bits, and
a float that is written in digits is finite.
-/

namespace Traceability.Toml.Scalar

open Text

/-- Digits without their underscores. -/
def ungrouped? (isDigit : Char → Bool) : List Char → Option (List Char)
  | [] => none
  | [c] => if isDigit c then some [c] else none
  | c :: '_' :: rest => if isDigit c then (ungrouped? isDigit rest).map (c :: ·) else none
  | c :: rest => if isDigit c then (ungrouped? isDigit rest).map (c :: ·) else none

def radix? (radix : Nat) (s : List Char) : Option Int := do
  let digits ← ungrouped? (fun c => (Numeral.digitValue c).any (· < radix)) s
  let n ← Numeral.natural? radix digits
  some n

/-- Decimal digits without a needless zero in front. -/
def whole? (s : List Char) : Option (List Char) :=
  match ungrouped? isDigit s with
  | some ('0' :: _ :: _) => none
  | digits => digits

def decimalInteger? (s : List Char) : Option Int := do
  let (negative, s) := Numeral.sign s
  let digits ← whole? s
  let n : Int := Numeral.digitsValue digits
  some (if negative then -n else n)

def integer? (s : List Char) : Option Int :=
  let n? := match s with
    | '0' :: 'x' :: rest => radix? 16 rest
    | '0' :: 'o' :: rest => radix? 8 rest
    | '0' :: 'b' :: rest => radix? 2 rest
    | s => decimalInteger? s
  n?.filter fun n => -twoTo 127 ≤ n && n < twoTo 128

def isExponentMark (c : Char) : Bool := c == 'e' || c == 'E'

/-- The part of a float after the first mark that satisfies a test: its digits, or
nothing if there is no mark. -/
def part? (mark : Char → Bool) (signed : Bool) : List Char → Option (List Char)
  | [] => some []
  | c :: s =>
      if mark c then
        let (front, digits) := match s with
          | '-' :: rest => if signed then (['-'], rest) else ([], s)
          | '+' :: rest => if signed then ([], rest) else ([], s)
          | _ => ([], s)
        (ungrouped? isDigit digits).map fun digits => c :: (front ++ digits)
      else none

/-- A float has a fraction, an exponent or both. -/
def digitsFloat? (negative : Bool) (s : List Char) : Option Binary64 := do
  let significand := s.takeWhile fun c => !isExponentMark c
  let whole ← whole? (significand.takeWhile (· != '.'))
  let fraction ← part? (· == '.') false (significand.dropWhile (· != '.'))
  let exponent ← part? isExponentMark true (s.dropWhile fun c => !isExponentMark c)
  let x ← Numeral.unsignedDecimal? negative (whole ++ fraction ++ exponent)
  if (fraction ++ exponent).isEmpty then none else if x.isFinite then some x else none

def float? (s : List Char) : Option Binary64 :=
  let (negative, s) := Numeral.sign s
  if s == "inf".toList then some (.infinite negative)
  else if s == "nan".toList then some (.nan negative)
  else digitsFloat? negative s

def ofWord? (s : List Char) : Option Value :=
  if s == "true".toList then some (.boolean true)
  else if s == "false".toList then some (.boolean false)
  else ((integer? s).map .integer).or (((float? s).map .float).or ((Moment.ofText? s).map .moment))

end Traceability.Toml.Scalar
