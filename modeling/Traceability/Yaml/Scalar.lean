import Traceability.Yaml.Cursor
import Traceability.Number.Numeral

/-!
Scalars in their three written forms. Inside plain and quoted scalars a line break is
folded: it counts as a blank, or as the empty lines that follow it. In a block scalar
the lines of equal indent are kept or folded, and a header tells what becomes of the
line breaks at the end. A form that is broken has no value.
-/

namespace Traceability.Yaml

/-- Blanks and line breaks between words: the blanks of the first line, the first
line break, and those after it. -/
structure Gap where
  blanks : List Char
  first : List Char
  more : List Char
  broken : Bool

namespace Gap

def empty : Gap := ⟨[], [], [], false⟩

/-- What a gap counts as between two words. -/
def text (g : Gap) : List Char :=
  if !g.broken then g.blanks
  else if g.first == ['\n'] then (if g.more.isEmpty then [' '] else g.more)
  else g.first ++ g.more

/-- Reads on from a gap to the next word. With a limit, a tab after a line break must
not stand before that column. -/
def read (limit : Option Nat) : Nat → Cursor → Gap → Option (Gap × Cursor)
  | 0, _, _ => none
  | fuel + 1, c, g =>
      match c.peek with
      | none => some (g, c)
      | some x =>
          if isSpace x then
            if g.broken then
              if x == '\t' && limit.any (fun column => c.column < column) then none
              else read limit fuel (c.skip 1) g
            else read limit fuel (c.skip 1) { g with blanks := g.blanks ++ [x] }
          else if isBreak x then
            if g.broken then read limit fuel c.skipBreak { g with more := g.more ++ c.breakText }
            else read limit fuel c.skipBreak ⟨[], c.breakText, g.more, true⟩
          else some (g, c)

end Gap

namespace Plain

def closesFlow (c : Char) : Bool := c == ',' || c == '[' || c == ']' || c == '{' || c == '}'

/-- The characters of a word at the start of a text. In a flow collection a colon
must not touch a mark of the collection. -/
def word? (flow : Bool) : List Char → Option (List Char)
  | [] => some []
  | c :: rest =>
      if isSpace c || isBreak c then some []
      else if c == ':' then
        if flow && rest.head?.any (fun x => x == '?' || closesFlow x) then none
        else if endsWord rest.head? then some []
        else (word? flow rest).map (c :: ·)
      else if flow && closesFlow c then some []
      else (word? flow rest).map (c :: ·)

/-- Reads words as long as they belong to the scalar; the flag tells whether a line
break was read after the last of them. -/
def read (flow : Bool) (indent : Nat) :
    Nat → Cursor → Gap → List Char → Option (List Char × Bool × Cursor)
  | 0, _, _, _ => none
  | fuel + 1, c, gap, value =>
      if c.atDocumentMark || c.sees '#' then some (value, gap.broken, c)
      else match word? flow c.rest with
        | none => none
        | some word =>
            let c := c.skip word.length
            let value := if word.isEmpty then value else value ++ gap.text ++ word
            let gap := if word.isEmpty then gap else Gap.empty
            if c.atSpace || c.atBreak then
              match Gap.read (some indent) fuel c gap with
              | none => none
              | some (gap, c) =>
                  if !flow && c.column < indent then some (value, gap.broken, c)
                  else read flow indent fuel c gap value
            else some (value, gap.broken, c)

end Plain

namespace Quoted

def hexValue? (s : List Char) : Option Nat := Numeral.natural? 16 s

/-- The character with a code that an escape gives. -/
def coded? (c : Cursor) (digits : Nat) : Option (List Char × Cursor) :=
  let text := c.rest.take digits
  if text.length < digits then none
  else match hexValue? text with
    | none => none
    | some n =>
        if (0xD800 ≤ n && n ≤ 0xDFFF) || 0x10FFFF < n then none
        else some ([Char.ofNat n], c.skip digits)

def simple? (c : Char) : Option Char :=
  ([('0', 0), ('a', 7), ('b', 8), ('t', 9), ('\t', 9), ('n', 10), ('v', 11), ('f', 12),
    ('r', 13), ('e', 27), (' ', 32), ('"', 34), ('/', 47), ('\\', 92), ('N', 0x85), ('_', 0xA0),
    ('L', 0x2028), ('P', 0x2029)].lookup c).map Char.ofNat

/-- The character of an escape, from the one after the backslash on. -/
def escaped? (c : Cursor) : Option (List Char × Cursor) :=
  match c.peek with
  | none => none
  | some 'x' => coded? (c.skip 1) 2
  | some 'u' => coded? (c.skip 1) 4
  | some 'U' => coded? (c.skip 1) 8
  | some x => (simple? x).map fun y => ([y], c.skip 1)

/-- Reads up to a blank, a line break, the closing quote, or an escaped line break;
the flag tells whether it was the last of these. -/
def word? (single : Bool) : Nat → Cursor → List Char → Option (List Char × Bool × Cursor)
  | 0, _, _ => none
  | fuel + 1, c, value =>
      match c.peek with
      | none => some (value, false, c)
      | some x =>
          if isSpace x || isBreak x then some (value, false, c)
          else if single && x == '\'' && c.peekAt 1 == some '\'' then
            word? single fuel (c.skip 2) (value ++ [x])
          else if x == (if single then '\'' else '"') then some (value, false, c)
          else if !single && x == '\\' then
            if (c.peekAt 1).any isBreak then some (value, true, (c.skip 1).skipBreak)
            else match escaped? (c.skip 1) with
              | none => none
              | some (y, c) => word? single fuel c (value ++ y)
          else word? single fuel (c.skip 1) (value ++ [x])

/-- Reads from behind the opening quote to behind the closing one. -/
def read (single : Bool) : Nat → Cursor → List Char → Option (List Char × Cursor)
  | 0, _, _ => none
  | fuel + 1, c, value =>
      if c.atDocumentMark || c.atEnd then none
      else match word? single (c.rest.length + 1) c value with
        | none => none
        | some (value, brokenByEscape, c) =>
            if c.sees (if single then '\'' else '"') then some (value, c.skip 1)
            else match Gap.read none (c.rest.length + 1) c ⟨[], [], [], brokenByEscape⟩ with
              | none => none
              | some (gap, c) => read single fuel c (value ++ gap.text)

end Quoted

namespace Block

inductive Chomping where
  | strip | clip | keep
deriving DecidableEq

/-- What the header of a block scalar sets. -/
structure Header where
  chomping : Chomping
  increment : Option Nat

def chomping? (c : Cursor) : Option Chomping :=
  match c.peek with
  | some '+' => some .keep
  | some '-' => some .strip
  | _ => none

def digit? (c : Cursor) : Option Nat :=
  match c.peek with
  | some x => if '0' ≤ x && x ≤ '9' then some (x.toNat - 48) else none
  | none => none

/-- The header's signs in either order; an increment of zero is refused. -/
def header? (c : Cursor) : Option (Header × Cursor) :=
  match chomping? c, digit? c with
  | some chomping, _ =>
      match digit? (c.skip 1) with
      | some 0 => none
      | some n => some (⟨chomping, some n⟩, c.skip 2)
      | none => some (⟨chomping, none⟩, c.skip 1)
  | none, some 0 => none
  | none, some n =>
      match chomping? (c.skip 1) with
      | some chomping => some (⟨chomping, some n⟩, c.skip 2)
      | none => some (⟨.clip, some n⟩, c.skip 1)
  | none, none => some (⟨.clip, none⟩, c)

/-- Skips the rest of a line that holds only blanks and a comment. -/
def endLine? (c : Cursor) : Option Cursor :=
  let c := c.skipWhile isSpace
  let c := if c.sees '#' then c.skipWhile fun x => !isBreak x else c
  if endsLine c.peek then some c.skipBreak else none

/-- Reads empty lines and the indent of the line after them. Without a known indent it
skips all blanks and notes the widest column. -/
def breaks (indent : Option Nat) :
    Nat → Cursor → Nat → List Char → Option (List Char × Nat × Cursor)
  | 0, _, _, _ => none
  | fuel + 1, c, widest, text =>
      let inIndent (column : Nat) : Bool :=
        match indent with
        | none => true
        | some n => column < n
      let blanks := match indent with
        | none => (c.rest.takeWhile (· == ' ')).length
        | some n => ((c.rest.take (n - c.column)).takeWhile (· == ' ')).length
      let c := c.skip blanks
      let widest := max widest c.column
      if inIndent c.column && c.sees '\t' then none
      else if c.atBreak then breaks indent fuel c.skipBreak widest (text ++ c.breakText)
      else some (text, widest, c)

/-- The value read so far, the line break after it and the empty lines after that. -/
structure Lines where
  value : List Char
  last : List Char
  more : List Char
  startedBlank : Bool

/-- Adds a line. Folding turns a line break between lines that do not start with a
blank into a blank, unless empty lines follow it. -/
def Lines.add (literal : Bool) (l : Lines) (line last : List Char) : Lines :=
  let startsBlank := line.head?.any isSpace
  let folded := !literal && l.last == ['\n'] && !l.startedBlank && !startsBlank
  let between := if folded then (if l.more.isEmpty then [' '] else []) else l.last
  ⟨l.value ++ between ++ l.more ++ line, last, [], startsBlank⟩

def lines (literal : Bool) (indent : Nat) : Nat → Cursor → Lines → Option (Lines × Cursor)
  | 0, _, _ => none
  | fuel + 1, c, l =>
      if c.column != indent || c.atEnd then some (l, c)
      else
        let (line, c) := c.takeWhile fun x => !isBreak x
        let l := l.add literal line c.breakText
        match breaks (some indent) (c.rest.length + 1) c.skipBreak 0 [] with
        | none => none
        | some (more, _, c) => lines literal indent fuel c { l with more }

def Lines.text (chomping : Chomping) (l : Lines) : List Char :=
  match chomping with
  | .strip => l.value
  | .clip => l.value ++ l.last
  | .keep => l.value ++ l.last ++ l.more

/-- Reads from behind the sign of a block scalar in a collection with the given indent. -/
def read (literal : Bool) (parent : Option Nat) (c : Cursor) : Option (List Char × Cursor) :=
  match header? c with
  | none => none
  | some (header, c) =>
      match endLine? c with
      | none => none
      | some c =>
          let fixed := header.increment.map fun n => parent.getD 0 + n
          match breaks fixed (c.rest.length + 1) c 0 [] with
          | none => none
          | some (more, widest, c) =>
              let least := match parent with
                | some n => n + 1
                | none => 0
              let indent := fixed.getD (max (max widest least) 1)
              match lines literal indent (c.rest.length + 1) c ⟨[], [], more, false⟩ with
              | none => none
              | some (l, c) => some (l.text header.chomping, c)

end Block

end Traceability.Yaml
