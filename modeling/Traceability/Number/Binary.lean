import Traceability.Number.Power

/-!
Binary floating-point numbers of 64 bits. A finite number is a count of the least
positive number, 2^(-1074), so that comparing two of them is comparing two integers.
A decimal value is rounded to the nearest number, ties to the even significand.
-/

namespace Traceability

inductive Binary64 where
  | nan (negative : Bool)
  | infinite (negative : Bool)
  | finite (negative : Bool) (steps : Nat)
deriving DecidableEq, Inhabited, Repr

namespace Binary64

def scale : Nat := 1074

/-- The least count of steps that is too large to be finite. -/
def limit : Nat := twoTo 2098

def signed (negative : Bool) (steps : Nat) : Int := if negative then -steps else steps

def order (a b : Int) : Ordering := if a < b then .lt else if b < a then .gt else .eq

/-- Nothing is comparable with a value that is not a number. -/
def compare? : Binary64 → Binary64 → Option Ordering
  | nan _, _ => none
  | _, nan _ => none
  | infinite s, infinite t => some (order (signed s 1) (signed t 1))
  | infinite s, finite _ _ => some (if s then .lt else .gt)
  | finite _ _, infinite t => some (if t then .gt else .lt)
  | finite s m, finite t n => some (order (signed s m) (signed t n))

def equal (a b : Binary64) : Bool := compare? a b == some .eq

/-- The nearest integer to a quotient, the even one when two are equally near. -/
def roundQuotient (num den : Nat) : Nat :=
  let q := num / den
  let r := num % den
  if 2 * r < den then q
  else if den < 2 * r then q + 1
  else if q % 2 == 0 then q else q + 1

/-- Counts of at least 2^53 steps keep 53 significant bits. -/
def roundSteps (num den : Nat) : Nat :=
  let q := num / den
  if q < twoTo 53 then roundQuotient num den
  else
    let unit := twoTo (Nat.log2 q - 52)
    roundQuotient num (den * unit) * unit

def ofSteps (negative : Bool) (steps : Nat) : Binary64 :=
  if steps < limit then finite negative steps else infinite negative

/-- Rounds the quotient of two naturals, the second positive. -/
def ofQuotient (negative : Bool) (num den : Nat) : Binary64 :=
  ofSteps negative (roundSteps (num * twoTo scale) den)

/-- The number of digits of a natural without leading zeros; zero has none. -/
def digitCount (n : Nat) : Nat := if n = 0 then 0 else (Nat.toDigits 10 n).length

/-- Rounds `digits · 10 ^ exponent`. Exponents far outside the range of finite
numbers are answered without computing the power. -/
def ofDecimal (negative : Bool) (digits : Nat) (exponent : Int) : Binary64 :=
  let magnitude := exponent + digitCount digits
  if digits = 0 || magnitude < -330 then finite negative 0
  else if 310 < magnitude then infinite negative
  else if exponent < 0 then ofQuotient negative digits (tenTo (-exponent).toNat)
  else ofQuotient negative (digits * tenTo exponent.toNat) 1

def isFinite : Binary64 → Bool
  | finite _ _ => true
  | _ => false

end Binary64

end Traceability
