import Traceability.Number.Numeral

/-!
Calendar dates, times of day, and the two together with or without an offset from
universal time. Seconds may be left out and count as zero; of a fraction nine digits
count. Written, a fraction has no zeros at its end.
-/

namespace Traceability.Toml

open Text

structure Date where
  year : Nat
  month : Nat
  day : Nat
deriving DecidableEq, Repr

structure Time where
  hour : Nat
  minute : Nat
  second : Nat
  nanosecond : Nat
deriving DecidableEq, Repr

inductive Offset where
  | universal
  | minutes (n : Int)
deriving DecidableEq, Repr

inductive Moment where
  | date (d : Date)
  | time (t : Time)
  | dateTime (d : Date) (t : Time) (offset : Option Offset)
deriving DecidableEq, Repr

/-- A natural of a fixed number of decimal digits at the start of a text. -/
def digits? (count : Nat) (s : List Char) : Option (Nat × List Char) :=
  let front := s.take count
  if front.length == count && front.all isDigit then some (Numeral.digitsValue front, s.drop count)
  else none

/-- Two digits that give at most a bound. -/
def pair? (bound : Nat) (s : List Char) : Option (Nat × List Char) :=
  match digits? 2 s with
  | some (n, rest) => if n ≤ bound then some (n, rest) else none
  | none => none

namespace Date

def isLeap (year : Nat) : Bool := year % 4 == 0 && (year % 100 != 0 || year % 400 == 0)

def daysIn (year month : Nat) : Nat :=
  if month == 2 then (if isLeap year then 29 else 28)
  else if month == 4 || month == 6 || month == 9 || month == 11 then 30
  else 31

def read? (s : List Char) : Option (Date × List Char) :=
  match digits? 4 s with
  | some (year, '-' :: s) =>
      match pair? 12 s with
      | some (month, '-' :: s) =>
          match pair? (daysIn year month) s with
          | some (day, s) => if month == 0 || day == 0 then none else some (⟨year, month, day⟩, s)
          | none => none
      | _ => none
  | _ => none

end Date

namespace Time

/-- The digits of a fraction of a second, as nanoseconds. -/
def nanoseconds (fraction : List Char) : Nat :=
  Numeral.digitsValue ((fraction ++ List.replicate 9 '0').take 9)

def fraction? : List Char → Option (Nat × List Char)
  | '.' :: s =>
      let fraction := s.takeWhile isDigit
      if fraction.isEmpty then none else some (nanoseconds fraction, s.drop fraction.length)
  | s => some (0, s)

/-- A second 60 is a leap second. -/
def seconds? : List Char → Option (Nat × Nat × List Char)
  | ':' :: s => do
      let (second, s) ← pair? 60 s
      let (nanosecond, s) ← fraction? s
      some (second, nanosecond, s)
  | s => some (0, 0, s)

def read? (s : List Char) : Option (Time × List Char) :=
  match pair? 23 s with
  | some (hour, ':' :: s) => do
      let (minute, s) ← pair? 59 s
      let (second, nanosecond, s) ← seconds? s
      some (⟨hour, minute, second, nanosecond⟩, s)
  | _ => none

end Time

namespace Offset

def ofClock? (sign : Int) (s : List Char) : Option Offset :=
  match pair? 23 s with
  | some (hours, ':' :: s) =>
      match pair? 59 s with
      | some (more, []) => some (.minutes (sign * (hours * 60 + more)))
      | _ => none
  | _ => none

/-- Reads the rest of a text, if there is any, as an offset. -/
def read? : List Char → Option (Option Offset)
  | [] => some none
  | ['Z'] | ['z'] => some (some .universal)
  | '+' :: s => (ofClock? 1 s).map some
  | '-' :: s => (ofClock? (-1) s).map some
  | _ => none

end Offset

namespace Moment

def separates (c : Char) : Bool := c == 'T' || c == 't' || c == ' '

def ofText? (s : List Char) : Option Moment :=
  match Date.read? s with
  | some (d, []) => some (.date d)
  | some (d, c :: rest) =>
      if separates c then do
        let (t, rest) ← Time.read? rest
        let offset ← Offset.read? rest
        some (.dateTime d t offset)
      else none
  | none =>
      match Time.read? s with
      | some (t, []) => some (.time t)
      | _ => none

def padded (width n : Nat) : List Char :=
  let digits := Nat.toDigits 10 n
  List.replicate (width - digits.length) '0' ++ digits

def dateText (d : Date) : List Char :=
  padded 4 d.year ++ '-' :: padded 2 d.month ++ '-' :: padded 2 d.day

def timeText (t : Time) : List Char :=
  let fraction :=
    if t.nanosecond == 0 then []
    else '.' :: ((padded 9 t.nanosecond).reverse.dropWhile (· == '0')).reverse
  padded 2 t.hour ++ ':' :: padded 2 t.minute ++ ':' :: padded 2 t.second ++ fraction

def offsetText : Offset → List Char
  | .universal => ['Z']
  | .minutes n =>
      (if n < 0 then '-' else '+') :: padded 2 (n.natAbs / 60) ++ ':' :: padded 2 (n.natAbs % 60)

def text : Moment → List Char
  | date d => dateText d
  | time t => timeText t
  | dateTime d t offset => dateText d ++ 'T' :: timeText t ++ offset.elim [] offsetText

end Moment

end Traceability.Toml
