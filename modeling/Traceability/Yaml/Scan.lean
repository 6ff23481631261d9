import Traceability.Yaml.Scalar
import Traceability.Yaml.Property

/-!
The tokens of a YAML text. Block collections start where the indent grows and end
where it shrinks. What looks like a key is noted, and becomes one when a colon follows
it on the same line and within 1024 characters. A text that breaks a rule has no
tokens.
-/

namespace Traceability.Yaml

/-- A place that can turn out to be a key, and the number of its first token. -/
structure Candidate where
  required : Bool
  number : Nat
  index : Nat
  line : Nat
  column : Nat

/-- The state of a scan. Tokens are kept in reverse. The first candidate belongs to the
innermost flow collection, the last one to the block around all of them; the indent is
that of the innermost block collection. -/
structure Scan where
  cursor : Cursor
  tokens : List Token
  count : Nat
  indents : List Nat
  candidates : List (Option Candidate)
  keyAllowed : Bool

namespace Scan

def start (text : List Char) : Scan := ⟨.start text, [], 0, [], [none], true⟩

def inFlow (s : Scan) : Bool := 1 < s.candidates.length

def indent? (s : Scan) : Option Nat := s.indents.head?

/-- The column at which the next deeper content starts. -/
def nextIndent (s : Scan) : Nat :=
  match s.indents with
  | [] => 0
  | n :: _ => n + 1

def push (s : Scan) (t : Token) : Scan := { s with tokens := t :: s.tokens, count := s.count + 1 }

/-- Puts a token before the one with the given number. -/
def splice (s : Scan) (number : Nat) (t : Token) : Scan :=
  let later := s.count - number
  { s with
    tokens := s.tokens.take later ++ t :: s.tokens.drop later
    count := s.count + 1 }

def candidate (s : Scan) : Option Candidate := s.candidates.head?.join

def withCandidate (s : Scan) (c : Option Candidate) : Scan :=
  { s with candidates := c :: s.candidates.tail }

/-- Gives up the innermost candidate, which must not be required. -/
def dropCandidate (s : Scan) : Option Scan :=
  match s.candidate with
  | some c => if c.required then none else some (s.withCandidate none)
  | none => some s

/-- Notes that the next token can start a key. -/
def noteCandidate (s : Scan) : Option Scan :=
  if s.keyAllowed then
    let c := s.cursor
    let required := !s.inFlow && s.indent? == some c.column
    (s.dropCandidate).map fun s =>
      s.withCandidate (some ⟨required, s.count, c.index, c.line, c.column⟩)
  else some s

/-- Gives up candidates that are no longer on the line or too far back. -/
def dropStale (s : Scan) : Option Scan :=
  let stale (c : Candidate) : Bool :=
    c.line < s.cursor.line || c.index + 1024 < s.cursor.index
  if s.candidates.any fun c => c.any fun c => stale c && c.required then none
  else some { s with candidates := s.candidates.map fun c => c.filter fun c => !stale c }

def closeIndents (column : Nat) : List Nat → Nat × List Nat
  | [] => (0, [])
  | n :: rest =>
      if column < n then
        let (closed, rest) := closeIndents column rest
        (closed + 1, rest)
      else (0, n :: rest)

/-- Ends the block collections that are indented further than a column. -/
def unroll (s : Scan) (column : Nat) : Scan :=
  if s.inFlow then s
  else
    let (closed, indents) := closeIndents column s.indents
    { s with
      tokens := List.replicate closed .blockEnd ++ s.tokens
      count := s.count + closed
      indents }

/-- Ends all block collections. -/
def unrollAll (s : Scan) : Scan :=
  if s.inFlow then s
  else
    { s with
      tokens := List.replicate s.indents.length .blockEnd ++ s.tokens
      count := s.count + s.indents.length
      indents := [] }

/-- Whether a column is indented further than the innermost block collection. -/
def isDeeper (s : Scan) (column : Nat) : Bool :=
  !s.inFlow &&
    match s.indents with
    | [] => true
    | n :: _ => n < column

/-- Starts a block collection if the column is indented further. -/
def roll (s : Scan) (column number : Nat) (t : Token) : Scan :=
  if s.isDeeper column then { s.splice number t with indents := column :: s.indents } else s

def rollHere (s : Scan) (t : Token) : Scan := s.roll s.cursor.column s.count t

def advance (s : Scan) (n : Nat) : Scan := { s with cursor := s.cursor.skip n }

def allowing (s : Scan) (allowed : Bool) : Scan := { s with keyAllowed := allowed }

/-- Skips blanks, comments and line breaks. A tab does not stand where the indent of a
block is counted. -/
def skipBlank : Nat → Scan → Scan
  | 0, s => s
  | fuel + 1, s =>
      let c := s.cursor
      let c := if c.column == 0 && c.sees (Char.ofNat 0xFEFF) then c.skip 1 else c
      let tabs := s.inFlow || !s.keyAllowed
      let c := c.skipWhile fun x => x == ' ' || (tabs && x == '\t')
      let c := if c.sees '#' then c.skipWhile fun x => !isBreak x else c
      if c.atBreak then
        skipBlank fuel
          { s with cursor := c.skipBreak, keyAllowed := s.keyAllowed || !s.inFlow }
      else { s with cursor := c }

def directive (s : Scan) : Option Scan := do
  let s ← s.unrollAll.dropCandidate
  let (token, c) ← Property.directive? s.cursor
  let c ← Block.endLine? c
  some ({ s.push token with cursor := c }.allowing false)

def documentMark (s : Scan) (t : Token) : Option Scan := do
  let s ← s.unrollAll.dropCandidate
  some (((s.push t).advance 3).allowing false)

def flowStart (s : Scan) (t : Token) : Option Scan := do
  let s ← s.noteCandidate
  let s := { s with candidates := none :: s.candidates }
  some (((s.push t).advance 1).allowing true)

def flowEnd (s : Scan) (t : Token) : Option Scan := do
  let s ← s.dropCandidate
  let s := if s.inFlow then { s with candidates := s.candidates.tail } else s
  some (((s.push t).advance 1).allowing false)

def flowEntry (s : Scan) : Option Scan := do
  let s ← s.dropCandidate
  some (((s.push .flowEntry).advance 1).allowing true)

def blockEntry (s : Scan) : Option Scan := do
  if !s.inFlow && !s.keyAllowed then none
  let s ← (s.rollHere .blockSequenceStart).dropCandidate
  some (((s.push .blockEntry).advance 1).allowing true)

def key (s : Scan) : Option Scan := do
  if !s.inFlow && !s.keyAllowed then none
  let s ← (s.rollHere .blockMappingStart).dropCandidate
  some (((s.push .key).advance 1).allowing !s.inFlow)

/-- A colon makes the candidate before it a key, or gives a value to a missing key. -/
def value (s : Scan) : Option Scan :=
  match s.candidate with
  | some c =>
      let s := (s.splice c.number .key).roll c.column c.number .blockMappingStart
      some ((((s.withCandidate none).push .value).advance 1).allowing false)
  | none =>
      if !s.inFlow && !s.keyAllowed then none
      else
        let s := s.rollHere .blockMappingStart
        some (((s.push .value).advance 1).allowing !s.inFlow)

def named (s : Scan) (make : String → Token) : Option Scan := do
  let s ← s.noteCandidate
  let (name, c) ← Property.name? s.cursor
  some ({ s.push (make name) with cursor := c }.allowing false)

def tagged (s : Scan) : Option Scan := do
  let s ← s.noteCandidate
  let (token, c) ← Property.tag? s.inFlow s.cursor
  some ({ s.push token with cursor := c }.allowing false)

def blockScalar (s : Scan) (literal : Bool) : Option Scan := do
  let s ← s.dropCandidate
  let (text, c) ← Block.read literal s.indent? (s.cursor.skip 1)
  some ({ s.push (.scalar false (String.ofList text)) with cursor := c }.allowing true)

def quoted (s : Scan) (single : Bool) : Option Scan := do
  let s ← s.noteCandidate
  let (text, c) ← Quoted.read single (s.cursor.rest.length + 1) (s.cursor.skip 1) []
  some ({ s.push (.scalar false (String.ofList text)) with cursor := c }.allowing false)

def plain (s : Scan) : Option Scan := do
  let s ← s.noteCandidate
  let (text, broken, c) ←
    Plain.read s.inFlow s.nextIndent (s.cursor.rest.length + 2) s.cursor .empty []
  some ({ s.push (.scalar true (String.ofList text)) with cursor := c }.allowing broken)

/-- Characters that start no plain scalar, unless a dash, or outside flow collections a
question mark or colon, is followed by more of a word. -/
def isIndicator (c : Char) : Bool :=
  ['-', '?', ':', ',', '[', ']', '{', '}', '#', '&', '*', '!', '|', '>', '\'', '"', '%', '@',
    Char.ofNat 0x60].contains c

def startsPlain (s : Scan) (c : Char) : Bool :=
  !(endsWord (some c) || isIndicator c) ||
    (c == '-' && !(s.cursor.peekAt 1).any isSpace) ||
    (!s.inFlow && (c == '?' || c == ':') && !endsWord (s.cursor.peekAt 1))

/-- The token at the cursor, which stands on no blank. -/
def token (s : Scan) (c : Char) : Option Scan :=
  let wordEnds := endsWord (s.cursor.peekAt 1)
  if s.cursor.column == 0 && c == '%' then s.directive
  else if s.cursor.atDocumentMark then
    s.documentMark (if c == '-' then .documentStart else .documentEnd)
  else if c == '[' then s.flowStart .flowSequenceStart
  else if c == '{' then s.flowStart .flowMappingStart
  else if c == ']' then s.flowEnd .flowSequenceEnd
  else if c == '}' then s.flowEnd .flowMappingEnd
  else if c == ',' then s.flowEntry
  else if c == '-' && wordEnds then s.blockEntry
  else if c == '?' && (s.inFlow || wordEnds) then s.key
  else if c == ':' && (s.inFlow || wordEnds) then s.value
  else if c == '*' then s.named .reference
  else if c == '&' then s.named .anchor
  else if c == '!' then s.tagged
  else if c == '|' && !s.inFlow then s.blockScalar true
  else if c == '>' && !s.inFlow then s.blockScalar false
  else if c == '\'' then s.quoted true
  else if c == '"' then s.quoted false
  else if s.startsPlain c then s.plain
  else none

def finish (s : Scan) : Option Scan := s.unrollAll.dropCandidate

def run : Nat → Scan → Option Scan
  | 0, _ => none
  | fuel + 1, s =>
      match (s.skipBlank (s.cursor.rest.length + 1)).dropStale with
      | none => none
      | some s =>
          match s.cursor.peek with
          | none => s.finish
          | some c =>
              match (s.unroll s.cursor.column).token c with
              | none => none
              | some s => run fuel s

end Scan

/-- A mark of the byte order in front of a text does not belong to it. -/
def withoutByteOrderMark : List Char → List Char
  | [] => []
  | c :: rest => if c.toNat == 0xFEFF then rest else c :: rest

/-- The tokens of a text. -/
def tokenize (text : List Char) : Option (List Token) :=
  let text := withoutByteOrderMark text
  if text.all isAllowed then
    (Scan.run (text.length + 1) (.start text)).map fun s => s.tokens.reverse
  else none

end Traceability.Yaml
