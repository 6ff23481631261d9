import Traceability.Number.Numeral

/-!
Quoted texts in their four forms: within double quotes a backslash escapes, within
single quotes nothing does, and three quotes of a kind let the text run over lines.
A text is written in double quotes if it then needs no escape, else in single quotes,
else in the forms over lines, and as a last resort with escapes.
-/

namespace Traceability.Toml.Quoted

/-- Control characters have to be escaped; a tab counts as none. -/
def isControl (c : Char) : Bool := (c.toNat < 0x20 && c != '\t') || c.toNat == 0x7F

def isBlank (c : Char) : Bool := c == ' ' || c == '\t'

/-- The character with a code point of a number of hexadecimal digits. -/
def code? (count : Nat) (s : List Char) : Option (Char × List Char) :=
  let digits := s.take count
  if digits.length != count then none
  else match Numeral.natural? 16 digits with
    | some n => if n.isValidChar then some (Char.ofNat n, s.drop count) else none
    | none => none

/-- What the text after a backslash stands for. -/
def escape? : List Char → Option (Char × List Char)
  | '"' :: s => some ('"', s)
  | '\\' :: s => some ('\\', s)
  | 'n' :: s => some ('\n', s)
  | 't' :: s => some ('\t', s)
  | 'r' :: s => some ('\r', s)
  | 'b' :: s => some (Char.ofNat 0x08, s)
  | 'f' :: s => some (Char.ofNat 0x0C, s)
  | 'e' :: s => some (Char.ofNat 0x1B, s)
  | 'x' :: s => code? 2 s
  | 'u' :: s => code? 4 s
  | 'U' :: s => code? 8 s
  | _ => none

def prepend (front : List Char) (r : Option (List Char × List Char)) :
    Option (List Char × List Char) :=
  r.map fun (text, rest) => (front ++ text, rest)

/-- The text up to a double quote. -/
def basic : Nat → List Char → Option (List Char × List Char)
  | 0, _ => none
  | fuel + 1, s =>
      match s with
      | [] => none
      | '"' :: rest => some ([], rest)
      | '\\' :: rest =>
          match escape? rest with
          | some (c, rest) => prepend [c] (basic fuel rest)
          | none => none
      | c :: rest => if isControl c then none else prepend [c] (basic fuel rest)

/-- The text up to a single quote. -/
def literal : List Char → Option (List Char × List Char)
  | [] => none
  | '\'' :: rest => some ([], rest)
  | c :: rest => if isControl c then none else prepend [c] (literal rest)

/-- A run of quotes inside a text over lines: three of them close it, and at most
two before those belong to it. -/
inductive Run where
  | inside (quotes rest : List Char)
  | closing (quotes rest : List Char)

def run (quote : Char) (s : List Char) : Run :=
  let n := (s.takeWhile (· == quote)).length
  if n < 3 then .inside (s.take n) (s.drop n)
  else
    let more := min (n - 3) 2
    .closing (s.take more) (s.drop (more + 3))

/-- A line break at the start of a text. -/
def newline? : List Char → Option (List Char × List Char)
  | '\n' :: rest => some (['\n'], rest)
  | '\r' :: '\n' :: rest => some (['\r', '\n'], rest)
  | _ => none

def skipFirstBreak (s : List Char) : List Char :=
  match newline? s with
  | some (_, rest) => rest
  | none => s

/-- After a backslash at the end of a line: the text from the next word on. -/
def skipFill : List Char → List Char
  | [] => []
  | '\r' :: '\n' :: rest => skipFill rest
  | c :: rest => if isBlank c || c == '\n' then skipFill rest else c :: rest

/-- The text over lines up to three quotes. -/
def lines (escapes : Bool) (quote : Char) : Nat → List Char → Option (List Char × List Char)
  | 0, _ => none
  | fuel + 1, s =>
      match newline? s with
      | some (ending, rest) => prepend ending (lines escapes quote fuel rest)
      | none =>
          match s with
          | [] => none
          | c :: rest =>
              if c == quote then
                match run quote s with
                | .inside quotes rest => prepend quotes (lines escapes quote fuel rest)
                | .closing quotes rest => some (quotes, rest)
              else if escapes && c == '\\' then
                match newline? (rest.dropWhile isBlank) with
                | some (_, rest) => lines escapes quote fuel (skipFill rest)
                | none =>
                    match escape? rest with
                    | some (c, rest) => prepend [c] (lines escapes quote fuel rest)
                    | none => none
              else if isControl c then none
              else prepend [c] (lines escapes quote fuel rest)

/-- A quoted text on one line. -/
def line? : List Char → Option (List Char × List Char)
  | '"' :: rest => basic (rest.length + 1) rest
  | '\'' :: rest => literal rest
  | _ => none

/-- A quoted text of any form. -/
def read? : List Char → Option (List Char × List Char)
  | '"' :: '"' :: '"' :: rest => lines true '"' (rest.length + 1) (skipFirstBreak rest)
  | '\'' :: '\'' :: '\'' :: rest => lines false '\'' (rest.length + 1) (skipFirstBreak rest)
  | s => line? s

/-- The length of the longest run of a character. -/
def longestRun (x : Char) (s : List Char) : Nat :=
  (s.foldl (fun (best, run) c =>
    if c == x then (max best (run + 1), run + 1) else (best, 0)) (0, 0)).1

def hexDigit (n : Nat) : Char := if n < 10 then Char.ofNat (0x30 + n) else Char.ofNat (0x37 + n)

def escaped (c : Char) : List Char :=
  if c == '\t' then ['\\', 't']
  else if c == '\n' then ['\\', 'n']
  else if c == '\r' then ['\\', 'r']
  else if c == '"' then ['\\', '"']
  else if c == '\\' then ['\\', '\\']
  else if c.toNat == 0x08 then ['\\', 'b']
  else if c.toNat == 0x0C then ['\\', 'f']
  else if isControl c then
    ['\\', 'u', '0', '0', hexDigit (c.toNat / 16), hexDigit (c.toNat % 16)]
  else [c]

/-- The body of a text over lines, where line breaks and up to two quotes in a row
need no escape. -/
def linesBody : Nat → List Char → List Char
  | _, [] => []
  | quotes, c :: rest =>
      if c == '"' then
        if quotes < 2 then c :: linesBody (quotes + 1) rest else '\\' :: c :: linesBody 0 rest
      else if c == '\n' then c :: linesBody 0 rest
      else escaped c ++ linesBody 0 rest

def asBasic (s : List Char) : List Char := '"' :: s.flatMap escaped ++ ['"']

def asLiteral (s : List Char) : List Char := '\'' :: s ++ ['\'']

def asLines (s : List Char) : List Char :=
  let quotes := List.replicate 3 '"'
  quotes ++ '\n' :: linesBody 0 s ++ quotes

def asLiteralLines (s : List Char) : List Char :=
  let quotes := List.replicate 3 '\''
  quotes ++ '\n' :: s ++ quotes

/-- Writes a value of text. -/
def written (s : List Char) : List Char :=
  let breaks := s.contains '\n'
  let controls := s.any fun c => isControl c && c != '\n'
  let slashes := s.contains '\\'
  if !controls && !slashes && !s.contains '"' && !breaks then asBasic s
  else if !controls && !s.contains '\'' && !breaks then asLiteral s
  else if !controls && !slashes && longestRun '"' s ≤ 2 then asLines s
  else if !controls && longestRun '\'' s ≤ 2 then asLiteralLines s
  else if breaks then asLines s
  else asBasic s

/-- Writes a text on one line. -/
def writtenLine (s : List Char) : List Char :=
  let controls := s.any isControl
  if !controls && !s.contains '\\' && !s.contains '"' then asBasic s
  else if !controls && !s.contains '\'' then asLiteral s
  else asBasic s

end Traceability.Toml.Quoted
