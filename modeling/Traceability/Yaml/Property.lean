import Traceability.Yaml.Cursor
import Traceability.Yaml.Token
import Traceability.Number.Numeral

/-!
Anchors, aliases, tags and directives. A tag has a handle, which a directive can
define, and a suffix; or it is written out between angle brackets.
-/

namespace Traceability.Yaml.Property

def isUriMark (c : Char) : Bool :=
  [';', '/', '?', ':', '@', '&', '=', '+', '$', '.', '%', '!', '~', '*', '\'', '(', ')'].contains c

/-- Characters of a tag. Some marks of flow collections may stand in one that is
written out. -/
def isUri (verbatim : Bool) (c : Char) : Bool :=
  isWord c || isUriMark c || (verbatim && (c == ',' || c == '[' || c == ']'))

/-- The byte that follows a percent sign. -/
def octet? : List Char → Option (Nat × List Char)
  | '%' :: a :: b :: rest => do
      let high ← Numeral.digitValue a
      let low ← Numeral.digitValue b
      some (16 * high + low, rest)
  | _ => none

/-- How many bytes a character has whose first byte is given. -/
def sequenceLength? (first : Nat) : Option Nat :=
  if first < 0x80 then some 1
  else if first / 32 == 6 then some 2
  else if first / 16 == 14 then some 3
  else if first / 8 == 30 then some 4
  else none

def trailing? : Nat → List Char → List UInt8 → Option (List UInt8 × List Char)
  | 0, rest, bytes => some (bytes, rest)
  | n + 1, rest, bytes =>
      match octet? rest with
      | some (b, rest) => if b / 64 == 2 then trailing? n rest (bytes ++ [UInt8.ofNat b]) else none
      | none => none

/-- The character written as percent signs with its bytes. -/
def percent? (s : List Char) : Option (List Char × List Char) :=
  match octet? s with
  | none => none
  | some (first, rest) =>
      match sequenceLength? first with
      | none => none
      | some n =>
          match trailing? (n - 1) rest [UInt8.ofNat first] with
          | none => none
          | some (bytes, rest) =>
              (String.fromUTF8? ⟨bytes.toArray⟩).map fun text => (text.toList, rest)

/-- The characters of a tag at the start of a text, and the text after them. -/
def uri? (verbatim : Bool) : Nat → List Char → Option (List Char × List Char)
  | 0, _ => none
  | fuel + 1, s =>
      match s with
      | [] => some ([], [])
      | c :: rest =>
          if !isUri verbatim c then some ([], s)
          else if c == '%' then
            match percent? s with
            | none => none
            | some (text, rest) =>
                (uri? verbatim fuel rest).map fun (more, rest) => (text ++ more, rest)
          else (uri? verbatim fuel rest).map fun (more, rest) => (c :: more, rest)

/-- Reads the characters of a tag, of which there must be one unless a head came before. -/
def readUri? (verbatim needed : Bool) (c : Cursor) : Option (List Char × Cursor) :=
  match uri? verbatim (c.rest.length + 1) c.rest with
  | none => none
  | some (text, rest) =>
      let n := c.rest.length - rest.length
      if needed && n == 0 then none else some (text, c.skip n)

/-- An exclamation mark, word characters, and a second mark if it is there. -/
def handle? (c : Cursor) : Option (List Char × Cursor) :=
  if c.sees '!' then
    let (name, next) := (c.skip 1).takeWhile isWord
    if next.sees '!' then some ('!' :: name ++ ['!'], next.skip 1) else some ('!' :: name, next)
  else none

def ofParts (handle suffix : List Char) : Token :=
  .tag (String.ofList handle) (String.ofList suffix)

/-- The tag at an exclamation mark. A lone mark has no handle. -/
def readTag? (c : Cursor) : Option (Token × Cursor) :=
  if c.peekAt 1 == some '<' then
    match readUri? true true (c.skip 2) with
    | none => none
    | some (suffix, c) => if c.sees '>' then some (ofParts [] suffix, c.skip 1) else none
  else
    match handle? c with
    | none => none
    | some (handle, c) =>
        if 1 < handle.length && handle.getLast? == some '!' then
          (readUri? false true c).map fun (suffix, c) => (ofParts handle suffix, c)
        else
          match readUri? false false c with
          | none => none
          | some (rest, c) =>
              let suffix := handle.drop 1 ++ rest
              some (if suffix.isEmpty then ofParts [] ['!'] else ofParts ['!'] suffix, c)

/-- A tag must be followed by the end of a word, or in a flow collection by a comma. -/
def tag? (flow : Bool) (c : Cursor) : Option (Token × Cursor) :=
  match readTag? c with
  | none => none
  | some (token, c) =>
      if (flow && c.sees ',') || endsWord c.peek then some (token, c) else none

/-- Whether a character can follow the name of an anchor. -/
def endsName (c : Option Char) : Bool :=
  endsWord c || c.any fun x => ['?', ':', ',', ']', '}', '%', '@', Char.ofNat 0x60].contains x

/-- The name of an anchor or reference behind its sign. -/
def name? (c : Cursor) : Option (String × Cursor) :=
  let (name, c) := (c.skip 1).takeWhile isWord
  if !name.isEmpty && endsName c.peek then some (String.ofList name, c) else none

/-- A number of at most nine digits. -/
def number? (c : Cursor) : Option (Nat × Cursor) :=
  let (digits, c) := c.takeWhile fun x => '0' ≤ x && x ≤ '9'
  if digits.length ≤ 9 then (Numeral.natural? 10 digits).map fun n => (n, c) else none

def version? (c : Cursor) : Option (Token × Cursor) := do
  let (major, c) ← number? (c.skipWhile isSpace)
  if !c.sees '.' then none
  let (minor, c) ← number? (c.skip 1)
  some (.version major minor, c)

def tagDirective? (c : Cursor) : Option (Token × Cursor) := do
  let (handle, c) ← handle? (c.skipWhile isSpace)
  if handle != ['!'] && handle.getLast? != some '!' then none
  if !c.atSpace then none
  let (start, c) ← readUri? true true (c.skipWhile isSpace)
  if !endsWord c.peek then none
  some (.tagDirective (String.ofList handle) (String.ofList start), c)

/-- The directive at a percent sign, without the rest of its line. -/
def directive? (c : Cursor) : Option (Token × Cursor) :=
  let (name, c) := (c.skip 1).takeWhile isWord
  if !endsWord c.peek then none
  else if name == "YAML".toList then version? c
  else if name == "TAG".toList then tagDirective? c
  else none

end Traceability.Yaml.Property
