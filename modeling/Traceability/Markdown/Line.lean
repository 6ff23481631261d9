/-!
Lines of Markdown and how they start. A tab moves on to the next multiple of four
columns, and when only some of these columns are wanted the others are kept for later.
-/

namespace Traceability.Markdown

/-- What is left of a line: its characters, the column of the first of them, and the
columns that are left of a tab before it. -/
structure Line where
  rest : List Char
  column : Nat
  pending : Nat

/-- Blanks that stay on a line. -/
def isInner (c : Char) : Bool := c == ' ' || c == '\t' || c.toNat == 11 || c.toNat == 12

def isAsciiBlank (c : Char) : Bool := c == ' ' || (9 ≤ c.toNat && c.toNat ≤ 13)

/-- Whether a text has no more characters of its line. -/
def atLineEnd (s : List Char) : Bool :=
  match s with
  | [] => true
  | c :: _ => c == '\n' || c == '\r'

def isBlank (s : List Char) : Bool := atLineEnd (s.dropWhile isInner)

namespace Line

def ofText (s : List Char) : Line := ⟨s, 0, 0⟩

/-- Skips at most the given number of columns; the answer is how many are missing. -/
def skipColumns : Nat → Nat → List Char → Nat × Line
  | 0, column, s => (0, ⟨s, column, 0⟩)
  | n + 1, column, s =>
      match s with
      | ' ' :: rest => skipColumns n (column + 1) rest
      | '\t' :: rest =>
          let width := 4 - column % 4
          if width ≤ n + 1 then skipColumns (n + 1 - width) (column + width) rest
          else (0, ⟨rest, column + width, width - (n + 1)⟩)
      | _ => (n + 1, ⟨s, column, 0⟩)
termination_by n => n
decreasing_by all_goals omega

/-- Skips up to `n` columns of blanks; the answer is how many there were. -/
def skipUpTo (l : Line) (n : Nat) : Nat × Line :=
  if n ≤ l.pending then (n, { l with pending := l.pending - n })
  else
    let (missing, l') := skipColumns (n - l.pending) l.column l.rest
    (n - missing, l')

/-- Skips `n` columns of blanks if there are so many. The line moves on in any case. -/
def skip (l : Line) (n : Nat) : Bool × Line :=
  let (found, l) := l.skipUpTo n
  (found == n, l)

def atEnd (l : Line) : Bool := atLineEnd l.rest

def withoutBlanks (l : Line) : List Char := l.rest.dropWhile fun c => c == ' ' || c == '\t'

def drop (l : Line) (n : Nat) : Line := ⟨l.rest.drop n, l.column + n, 0⟩

end Line

/-! What stands at the start of a block -/

/-- Three marks of one kind or more, with nothing else on the line. -/
def isRule : List Char → Bool
  | [] => false
  | c :: rest =>
      if c == '*' || c == '-' || c == '_' then
        let line := (c :: rest).takeWhile fun x => x != '\n' && x != '\r'
        line.all (fun x => x == c || x == ' ' || x == '\t') && 3 ≤ line.count c
      else false

def isHeading (s : List Char) : Bool :=
  let level := (s.takeWhile (· == '#')).length
  1 ≤ level && level ≤ 6 && (s.drop level).head?.all isAsciiBlank

/-- A line of one mark under a paragraph, which makes it a heading. -/
def isUnderline : List Char → Bool
  | [] => false
  | c :: rest => (c == '=' || c == '-') && isBlank (rest.dropWhile (· == c))

/-- The mark and the length of a fence. Backticks must not come back on its line. -/
def fence? : List Char → Option (Char × Nat)
  | [] => none
  | c :: rest =>
      let length := 1 + (rest.takeWhile (· == c)).length
      let info := ((c :: rest).drop length).takeWhile (· != '\n')
      if (c == '~' || (c == (Char.ofNat 0x60) && !info.contains c)) && 3 ≤ length then
        some (c, length)
      else none

/-- Whether a fence of at least the given length stands alone on a line. -/
def closesFence (mark : Char) (length : Nat) (s : List Char) : Bool :=
  let found := (s.takeWhile (· == mark)).length
  length ≤ found && atLineEnd ((s.drop found).dropWhile (· == ' '))

def isDigit (c : Char) : Bool := '0' ≤ c && c ≤ '9'

/-- The mark of a list item at the start of a text and the length of what stands for
it: a bullet, or at most nine digits with a point or bracket, whose value is given. -/
def marker? : List Char → Option (Char × Nat × Nat)
  | [] => none
  | c :: rest =>
      if c == '-' || c == '+' || c == '*' then some (c, 1, 0)
      else
        let digits := (c :: rest).takeWhile isDigit
        match (c :: rest).drop digits.length with
        | mark :: _ =>
            if 1 ≤ digits.length && digits.length ≤ 9 && (mark == '.' || mark == ')') then
              some (mark, digits.length + 1,
                digits.foldl (fun n d => n * 10 + (d.toNat - 48)) 0)
            else none
        | [] => none

/-- The mark of a list item, the indent of what belongs to it, and the line behind it. -/
def Line.item? (l : Line) (indent : Nat) : Option (Char × Nat × Line) :=
  match marker? l.rest with
  | none => none
  | some (mark, length, _) =>
      if length == 1 && isRule l.rest then none
      else
        let behind := l.drop length
        let (spaced, inner) := behind.skip 1
        if !spaced && !behind.atEnd then none
        else
          -- a bullet counts its blank even at the end of the line
          let width := if length == 1 then 2 else length + (if spaced then 1 else 0)
          if isBlank inner.rest then some (mark, indent + width, inner)
          else
            let (more, content) := inner.skipUpTo 4
            if more < 4 then some (mark, indent + width + more, content)
            else some (mark, indent + width, inner)

/-- The line behind the mark of a quote. -/
def Line.quote? (l : Line) : Option Line :=
  if l.pending == 0 && l.rest.head? == some '>' then some ((l.drop 1).skip 1).2 else none

end Traceability.Markdown
