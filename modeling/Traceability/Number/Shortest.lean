import Traceability.Number.Binary

/-!
The shortest decimal digits that read back to a finite number, the nearest of those
with that many digits, and on a tie the even last digit; and layouts that write
digits and exponent as text.
-/

namespace Traceability.Shortest

open Binary64

/-- A positive value `digits · 10 ^ exponent`. -/
structure Decimal where
  digits : Nat
  exponent : Int
deriving DecidableEq, Repr

/-- Twice the distance from a count of steps to the ends of the interval that rounds
to it, below and above. -/
def halfWidths (steps : Nat) : Nat × Nat :=
  if steps < twoTo 53 then (1, 1)
  else
    let unit := twoTo (Nat.log2 steps - 52)
    (if steps == twoTo (Nat.log2 steps) then unit / 2 else unit, unit)

def unitOf (steps : Nat) : Nat := if steps < twoTo 53 then 1 else twoTo (Nat.log2 steps - 52)

/-- Whether a value given in units of 2^(-1075), as a fraction, rounds to `steps`;
the ends of the interval do so when the significand is even. -/
def roundsTo (steps num den : Nat) : Bool :=
  let (below, above) := halfWidths steps
  let low := (2 * steps - below) * den
  let high := (2 * steps + above) * den
  if steps / unitOf steps % 2 == 0 then low ≤ num && num ≤ high
  else low < num && num < high

/-- The place of the leading digit: 10 ^ place is the least power of ten above the value. -/
def place (steps : Nat) : Int :=
  let rec climb (fuel : Nat) (k : Int) : Int :=
    match fuel with
    | 0 => k
    | fuel + 1 =>
        let above :=
          if k < 0 then steps * tenTo (-k).toNat < twoTo scale
          else steps < tenTo k.toNat * twoTo scale
        if above then k else climb fuel (k + 1)
  -- 0.30102 is a little less than the common logarithm of two
  let guess := ((Nat.log2 steps : Int) - scale) * 30102 / 100000 - 1
  climb 20 guess

/-- A value of `digits · 10 ^ exponent` in units of 2^(-1075), as a fraction. -/
def inHalfSteps (digits : Nat) (exponent : Int) : Nat × Nat :=
  if exponent < 0 then (digits * twoTo (scale + 1), tenTo (-exponent).toNat)
  else (digits * tenTo exponent.toNat * twoTo (scale + 1), 1)

/-- The candidates with the leading digit at `place` and the last one at `exponent`. -/
def candidate? (steps : Nat) (exponent : Int) : Option Decimal :=
  let (num, den) :=
    if exponent < 0 then (steps * tenTo (-exponent).toNat, twoTo scale)
    else (steps, tenTo exponent.toNat * twoTo scale)
  let d := num / den
  let fits (d : Nat) : Bool :=
    let (n, m) := inHalfSteps d exponent
    0 < d && roundsTo steps n m
  let r := num % den
  let upperFirst := den < 2 * r || (2 * r == den && d % 2 == 1)
  let (first, second) := if upperFirst then (d + 1, d) else (d, d + 1)
  if fits first then some ⟨first, exponent⟩
  else if fits second then some ⟨second, exponent⟩
  else none

def search (steps : Nat) (top : Int) : Nat → Nat → Decimal
  | 0, _ => ⟨steps, 0⟩
  | fuel + 1, count =>
      match candidate? steps (top - count) with
      | some d => d
      | none => search steps top fuel (count + 1)

/-- Drops zeros at the end of the digits. -/
def normalize : Nat → Decimal → Decimal
  | 0, d => d
  | fuel + 1, d =>
      if d.digits % 10 == 0 && d.digits != 0 then normalize fuel ⟨d.digits / 10, d.exponent + 1⟩
      else d

/-- The shortest decimal of a positive count of steps. -/
def ofSteps (steps : Nat) : Decimal := normalize 20 (search steps (place steps) 17 1)

def digitText (n : Nat) : List Char := Nat.toDigits 10 n

def zeros (n : Nat) : List Char := List.replicate n '0'

/-- Positional notation without an exponent: a whole value has no point. -/
def positional (d : Decimal) : List Char :=
  let digits := digitText d.digits
  let point : Int := digits.length + d.exponent
  if 0 ≤ d.exponent then digits ++ zeros d.exponent.toNat
  else if 0 < point then digits.take point.toNat ++ '.' :: digits.drop point.toNat
  else '0' :: '.' :: zeros (-point).toNat ++ digits

/-- Positional notation within limits of the point's place, else an exponent after
the first digit; a whole value ends in `.0`. -/
def scientificOutside (low high : Int) (d : Decimal) : List Char :=
  let digits := digitText d.digits
  let point : Int := digits.length + d.exponent
  if low < point && point ≤ high then
    if 0 ≤ d.exponent then positional d ++ ['.', '0'] else positional d
  else
    let tail := 'e' :: (toString (point - 1)).toList
    match digits with
    | [] => tail
    | [c] => c :: tail
    | c :: rest => c :: '.' :: rest ++ tail

end Traceability.Shortest
