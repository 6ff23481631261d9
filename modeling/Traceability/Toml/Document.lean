import Traceability.Toml.Scalar
import Traceability.Toml.Table

/-!
A configuration text: lines with headers and assignments, comments and blank lines. A
text that breaks a rule has no value. Values nest at most eighty deep.
-/

namespace Traceability.Toml

inductive Statement where
  | header (path : List String)
  | element (path : List String)
  | assignment (path : List String) (v : Value)

namespace Statement

def skipBlanks (s : List Char) : List Char := s.dropWhile Quoted.isBlank

/-- Passes over a comment, if there is one. -/
def comment? : List Char → Option (List Char)
  | '#' :: s =>
      let rest := s.dropWhile fun c => !Quoted.isControl c
      if rest.isEmpty || (Quoted.newline? rest).isSome then some rest else none
  | s => some s

/-- Passes over the end of a line. -/
def lineEnd? (s : List Char) : Option (List Char) := do
  let rest ← comment? (skipBlanks s)
  if rest.isEmpty then some [] else (Quoted.newline? rest).map Prod.snd

/-- Passes over blanks, comments and line breaks between the parts of a value. -/
def skipFill : Nat → List Char → Option (List Char)
  | 0, _ => none
  | fuel + 1, s => do
      let rest ← comment? (skipBlanks s)
      match Quoted.newline? rest with
      | some (_, rest) => skipFill fuel rest
      | none => some rest

def fill (s : List Char) : Option (List Char) := skipFill (s.length + 1) s

def key? (s : List Char) : Option (String × List Char) :=
  let bare := s.takeWhile fun c => Value.isBareKey [c]
  if bare.isEmpty then (Quoted.line? s).map fun (text, rest) => (String.ofList text, rest)
  else some (String.ofList bare, s.drop bare.length)

/-- Keys with points between them, and blanks around. -/
def path? : Nat → List Char → Option (List String × List Char)
  | 0, _ => none
  | fuel + 1, s => do
      let (k, rest) ← key? (skipBlanks s)
      match skipBlanks rest with
      | '.' :: rest =>
          let (path, rest) ← path? fuel rest
          some (k :: path, rest)
      | rest => some ([k], rest)

def path (s : List Char) : Option (List String × List Char) := path? (s.length + 1) s

def isWordEnd (c : Char) : Bool :=
  Quoted.isBlank c || c == '\n' || c == '\r' || c == ',' || c == '#' || c == '=' ||
    c == '[' || c == ']' || c == '{' || c == '}'

/-- A word. Between a date and a time there may be one blank. -/
def word (s : List Char) : List Char × List Char :=
  let front := s.takeWhile fun c => !isWordEnd c
  match s.drop front.length with
  | ' ' :: c :: rest =>
      if Text.isDigit c && (Date.read? front).any (·.2.isEmpty) then
        let back := (c :: rest).takeWhile fun c => !isWordEnd c
        (front ++ ' ' :: back, (c :: rest).drop back.length)
      else (front, ' ' :: c :: rest)
  | rest => (front, rest)

/-- A value that holds no other. -/
def flat? (s : List Char) : Option (Value × List Char) :=
  match s with
  | '"' :: _ | '\'' :: _ => (Quoted.read? s).map fun (text, rest) => (.text (String.ofList text), rest)
  | _ =>
      let (front, rest) := word s
      (Scalar.ofWord? front).map fun v => (v, rest)

/-- What follows one of the parts of a list: a comma or the closing bracket. -/
inductive Follow where
  | more (rest : List Char)
  | closed (rest : List Char)

def follow? (closing : Char) (s : List Char) : Option Follow := do
  match ← fill s with
  | c :: rest =>
      if c == ',' then some (.more rest) else if c == closing then some (.closed rest) else none
  | [] => none

section Nested

variable (value? : List Char → Option (Value × List Char))

/-- The elements of a list up to its closing bracket. -/
def elements : Nat → List Char → Option (List Value × List Char)
  | 0, _ => none
  | fuel + 1, s => do
      match ← fill s with
      | ']' :: rest => some ([], rest)
      | s =>
          let (v, rest) ← value? s
          match ← follow? ']' rest with
          | .closed rest => some ([v], rest)
          | .more rest =>
              let (vs, rest) ← elements fuel rest
              some (v :: vs, rest)

/-- A path, an equals sign and a value. -/
def assignment? (s : List Char) : Option (List String × Value × List Char) := do
  let (keys, rest) ← path s
  match rest with
  | '=' :: rest =>
      let (v, rest) ← value? (skipBlanks rest)
      some (keys, v, rest)
  | _ => none

/-- The assignments of a table in braces, made one after the other. -/
def fields : Nat → List Char → Entries → Option (Entries × List Char)
  | 0, _, _ => none
  | fuel + 1, s, t => do
      match ← fill s with
      | '}' :: rest => some (t, rest)
      | s =>
          let (keys, v, rest) ← assignment? value? s
          let t ← Entries.assign v keys t
          match ← follow? '}' rest with
          | .closed rest => some (t, rest)
          | .more rest => fields fuel rest t

end Nested

/-- A value at the start of a text. -/
def value? : Nat → List Char → Option (Value × List Char)
  | 0, s => flat? s
  | depth + 1, s =>
      match s with
      | '[' :: rest =>
          (elements (value? depth) (rest.length + 1) rest).map fun (vs, rest) => (.array vs, rest)
      | '{' :: rest =>
          (fields (value? depth) (rest.length + 1) rest []).map fun (t, rest) =>
            (.table (finishAll t), rest)
      | s => flat? s

def maximalDepth : Nat := 80

/-- The statement at the start of a text, up to the end of its line. -/
def read? (s : List Char) : Option (Statement × List Char) :=
  match s with
  | '[' :: '[' :: s =>
      match path s with
      | some (keys, ']' :: ']' :: rest) => (lineEnd? rest).map fun rest => (.element keys, rest)
      | _ => none
  | '[' :: s =>
      match path s with
      | some (keys, ']' :: rest) => (lineEnd? rest).map fun rest => (.header keys, rest)
      | _ => none
  | s => do
      let (keys, v, rest) ← assignment? (value? maximalDepth) s
      let rest ← lineEnd? rest
      some (.assignment keys v, rest)

/-- The statements of a text. -/
def readAll : Nat → List Char → Option (List Statement)
  | 0, _ => none
  | fuel + 1, s => do
      match ← fill s with
      | [] => some []
      | s =>
          let (statement, rest) ← read? s
          let later ← readAll fuel rest
          some (statement :: later)

end Statement

/-- What has been read so far, and the header that assignments belong to. -/
structure Reading where
  entries : Entries
  current : List String

def Reading.step (r : Reading) : Statement → Option Reading
  | .header path => (Entries.atHeader Entries.state path r.entries).map fun t => ⟨t, path⟩
  | .element path => (Entries.atHeader Entries.append path r.entries).map fun t => ⟨t, path⟩
  | .assignment path v =>
      (Entries.within (Entries.assign v path) r.current r.entries).map fun t => ⟨t, r.current⟩

/-- A byte order mark in front of a text does not count. -/
def dropMark : List Char → List Char
  | c :: s => if c.toNat == 0xFEFF then s else c :: s
  | [] => []

/-- The table that a text describes. -/
def read? (s : List Char) : Option Value := do
  let s := dropMark s
  let statements ← Statement.readAll (s.length + 1) s
  let reading ← statements.foldlM Reading.step ⟨[], []⟩
  some (.table (finishAll reading.entries))

end Traceability.Toml
