import Traceability.Text.Blank
import Traceability.Text.Alphanumeric
import Traceability.Number.Binary

/-!
Numerals: the texts that name a number. A decimal numeral is an optional sign,
digits with an optional point, at least one digit among them, and an optional
exponent; `inf`, `infinity` and `nan` stand in any case. Integers are read in a
radix up to sixteen.
-/

namespace Traceability.Numeral

open Text

def digitValue (c : Char) : Option Nat :=
  let n := c.toNat
  if 0x30 ≤ n && n ≤ 0x39 then some (n - 0x30)
  else if 0x61 ≤ n && n ≤ 0x66 then some (n - 0x61 + 10)
  else if 0x41 ≤ n && n ≤ 0x46 then some (n - 0x41 + 10)
  else none

/-- The value of a text of digits of a radix; the empty text has none. -/
def natural? (radix : Nat) (s : List Char) : Option Nat :=
  if s.isEmpty then none
  else s.foldl (fun value c => do
    let v ← value
    let d ← digitValue c
    if d < radix then some (v * radix + d) else none) (some 0)

/-- Splits off a leading sign; the flag tells whether it is a minus. -/
def sign : List Char → Bool × List Char
  | '-' :: rest => (true, rest)
  | '+' :: rest => (false, rest)
  | s => (false, s)

def digitsValue (s : List Char) : Nat :=
  s.foldl (fun v c => v * 10 + (c.toNat - 0x30)) 0

/-- The exponent that a text such as `e-3` gives; the empty text gives zero. -/
def exponent? : List Char → Option Int
  | [] => some 0
  | c :: rest =>
      if c == 'e' || c == 'E' then
        let (negative, digits) := sign rest
        if !digits.isEmpty && digits.all isDigit then
          let n : Int := digitsValue digits
          some (if negative then -n else n)
        else none
      else none

def unsignedDecimal? (negative : Bool) (s : List Char) : Option Binary64 :=
  let whole := s.takeWhile isDigit
  let afterWhole := s.dropWhile isDigit
  let (fraction, rest) := match afterWhole with
    | '.' :: rest => (rest.takeWhile isDigit, rest.dropWhile isDigit)
    | rest => ([], rest)
  if whole.isEmpty && fraction.isEmpty then none
  else
    match exponent? rest with
    | none => none
    | some e =>
        some (Binary64.ofDecimal negative (digitsValue (whole ++ fraction)) (e - fraction.length))

def lowerAscii (c : Char) : Char :=
  if 0x41 ≤ c.toNat && c.toNat ≤ 0x5A then Char.ofNat (c.toNat + 32) else c

/-- The number that a decimal numeral names. -/
def decimal? (s : List Char) : Option Binary64 :=
  let (negative, rest) := sign s
  let word := String.ofList (rest.map lowerAscii)
  if word == "inf" || word == "infinity" then some (.infinite negative)
  else if word == "nan" then some (.nan negative)
  else unsignedDecimal? negative rest

/-- A natural number up to a bound, in decimal digits after an optional plus. -/
def bounded? (bound : Nat) (s : List Char) : Option Nat :=
  match (match s with
    | '+' :: rest => natural? 10 rest
    | _ => natural? 10 s) with
  | some n => if n ≤ bound then some n else none
  | none => none

end Traceability.Numeral
