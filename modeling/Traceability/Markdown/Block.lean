import Traceability.Text.Blank
import Traceability.Markdown.Html
import Traceability.Markdown.Reference

/-!
The fenced blocks of a Markdown text. Lines are read one after the other. Each line
continues the quotes and list items that are open, or leaves them, and then continues
the innermost block or starts new ones. Only fences are kept; what else a line can
start matters because it decides whether a later line is a fence.
-/

namespace Traceability.Markdown

/-- A block with a fence: the number of its first line, what follows the fence there,
and the lines inside. -/
structure Fence where
  number : Nat
  info : List Char
  lines : List (List Char)
deriving DecidableEq

/-- A quote, a list with its mark, or an item of a list with the indent of its content. -/
inductive Container where
  | quote
  | list (mark : Char)
  | item (indent : Nat)
deriving DecidableEq

/-- A fence that is still open, with its indent, mark and length. -/
structure OpenFence where
  fence : Fence
  indent : Nat
  mark : Char
  length : Nat

/-- The innermost open block. A block of HTML goes on to an ending or a blank line. -/
inductive Leaf where
  | none
  | paragraph
  | fence (f : OpenFence)
  | html (ending : Option String)

/-- The state between two lines: the containers from the outermost on, whether the last
mark of a list item had nothing behind it, whether a blank line came last, and the
fences that are complete. -/
structure Blocks where
  containers : List Container
  leaf : Leaf
  emptyItem : Bool
  lastBlank : Bool
  fences : List Fence

namespace Blocks

def empty : Blocks := ⟨[], .none, false, false, []⟩

/-- How many containers a line continues, and the line behind their marks. -/
def continued : List Container → Line → Nat × Line
  | [], l => (0, l)
  | c :: rest, l =>
      let inside? : Option Line :=
        match c with
        | .list _ => some l
        | .quote => (l.skip 3).2.quote?
        | .item indent =>
            let (deep, inner) := l.skip indent
            if deep || inner.atEnd then some inner else none
      match inside? with
      | none => (0, l)
      | some inner =>
          let (n, l) := continued rest inner
          (n + 1, l)

def innermost (b : Blocks) : Option Container := b.containers.getLast?

def leave (b : Blocks) : Blocks := { b with containers := b.containers.dropLast }

def enter (b : Blocks) (c : Container) : Blocks := { b with containers := b.containers ++ [c] }

def inItem (b : Blocks) : Bool :=
  match b.innermost with
  | some (.item _) => true
  | _ => false

def inList (b : Blocks) : Bool :=
  match b.innermost with
  | some (.list _) => true
  | _ => false

/-- An item cannot start with a blank line after an empty first line. -/
def finishEmptyItem (b : Blocks) : Blocks :=
  let b := if b.emptyItem && b.lastBlank && b.inItem then b.leave else b
  { b with emptyItem := false }

/-- What is not an item of the list ends it. -/
def finishList (b : Blocks) : Blocks :=
  let b := b.finishEmptyItem
  let b := if b.inList then b.leave else b
  { b with lastBlank := false }

def startItem (b : Blocks) (mark : Char) (indent : Nat) : Blocks :=
  let b := b.finishEmptyItem
  let b :=
    if b.innermost = some (.list mark) then b else b.finishList.enter (.list mark)
  { b.enter (.item indent) with lastBlank := false }

/-- Enters the containers whose marks a line has; the last answer is whether the line
ends with the mark of an item. -/
def enterAll : Nat → Blocks → Line → Blocks × Line × Bool
  | 0, b, l => (b, l, false)
  | fuel + 1, b, l =>
      let (indent, inner) := l.skipUpTo 4
      if 4 ≤ indent then (b, l, false)
      else
        match inner.item? indent with
        | some (mark, width, behind) =>
            let b := b.startItem mark width
            if isBlank behind.rest then ({ b with emptyItem := true }, behind, true)
            else enterAll fuel b behind
        | none =>
            match inner.quote? with
            | some behind => enterAll fuel (b.finishList.enter .quote) behind
            | none => (b, l, false)

def close (b : Blocks) : Blocks :=
  match b.leaf with
  | .fence f => { b with leaf := .none, fences := b.fences ++ [f.fence] }
  | _ => { b with leaf := .none }

/-- Notes a blank line. An item without content so far takes no indented content. -/
def noteBlank (b : Blocks) : Blocks :=
  match b.innermost with
  | some .quote => b
  | some (.item _) =>
      if b.emptyItem then { b.leave.enter (.item 0) with lastBlank := true }
      else { b with lastBlank := true }
  | _ => { b with lastBlank := true }

/-- Whether a line under a paragraph ends it and starts another block. Only an item
with content, and with the number one if it has one, can interrupt the paragraph of a
container that the line continues. -/
def interrupts (inContainer nextBlank : Bool) (s : List Char) : Bool :=
  atLineEnd s || isRule s || isHeading s || (fence? s).isSome || s.head? == some '>' ||
    (match ((⟨s, 0, 0⟩ : Line).item? 0), marker? s with
      | some _, some (_, length, value) =>
          !inContainer ||
            ((length == 1 || value == 1) && !(isBlank (s.drop length) && nextBlank))
      | _, _ => false) ||
    (s.head? == some '<' &&
      ((Html.ending? (s.drop 1)).isSome || Html.startsElement (s.drop 1)))

/-- The text of a line inside a fence. A carriage return before its last character does
not count. -/
def body (s : List Char) : List Char :=
  match s.reverse with
  | c :: '\r' :: rest => if c.toNat < 128 then (c :: rest).reverse else s
  | _ => s

def withoutBlankEnd (s : List Char) : List Char := (s.reverse.dropWhile isAsciiBlank).reverse

/-- A line that starts a block of HTML, and where the block ends. -/
def html? (s : List Char) : Option (Option String) :=
  match s with
  | '<' :: rest =>
      match Html.ending? rest with
      | some ending => some (some ending)
      | none => if Html.startsElement rest || Html.isLoneTag rest then some none else none
  | _ => none

/-- The block of HTML after one more of its lines. -/
def afterHtml (ending : Option String) (s : List Char) : Leaf :=
  match ending with
  | some ending => if Html.contains ending s then .none else .html (some ending)
  | none => .html none

/-- What a line has become: part of the blocks as a whole, or only up to a carriage
return; or it ended a block and stands for itself. -/
inductive Reading where
  | whole (b : Blocks)
  | toReturn (b : Blocks)
  | definition (b : Blocks) (lines : Nat)

/-- The lines that follow a line inside all open containers, up to a blank one. -/
def following (containers : List Container) : List (List Char) → List (List Char)
  | [] => []
  | s :: rest =>
      let (n, l) := continued containers (.ofText s)
      if n < containers.length || isBlank l.rest then []
      else l.rest :: following containers rest

/-- Starts a block at a line that continues no leaf. -/
def start (b : Blocks) (number : Nat) (s : List Char) (rest : List (List Char)) : Reading :=
  let (n, l) := continued b.containers (.ofText s)
  let (b, l, markOnly) :=
    enterAll (s.length + 1) { b with containers := b.containers.take n } l
  if markOnly then .toReturn b
  else if isBlank l.rest then .toReturn b.noteBlank
  else
    let b := b.finishList
    let (indent, inner) := l.skipUpTo 4
    if 4 ≤ indent then .whole b
    else
      let s := inner.rest
      match html? s with
      | some ending => .whole { b with leaf := afterHtml ending s }
      | none =>
          if isRule s || isHeading s then .toReturn b
          else match fence? s with
            | some (mark, length) =>
                let info := withoutBlankEnd ((s.drop length).dropWhile isInner)
                .whole { b with leaf := .fence ⟨⟨number, info, []⟩, indent, mark, length⟩ }
            | none =>
                let lines := Text.join ['\n'] (s :: following b.containers rest)
                match Reference.lineCount lines with
                | some count => .definition b count
                | none => .toReturn { b with leaf := .paragraph }

/-- Reads a line, with the lines after it in view. -/
def read (b : Blocks) (number : Nat) (s : List Char) (rest : List (List Char)) : Reading :=
  let (n, l) := continued b.containers (.ofText s)
  let inside := n == b.containers.length
  match b.leaf with
  | .none => b.start number s rest
  | .fence f =>
      if !inside then b.close.start number s rest
      else
        let l := (l.skip f.indent).2
        let (closeIndent, closing) := l.skipUpTo (4 - f.indent)
        if closeIndent < 4 - f.indent && closesFence f.mark f.length closing.rest then
          .toReturn b.close
        else
          let fence := { f.fence with lines := f.fence.lines ++ [body l.rest] }
          .whole { b with leaf := .fence { f with fence } }
  | .html ending =>
      if !inside || (ending.isNone && isBlank l.rest) then b.close.start number s rest
      else .whole { b with leaf := afterHtml ending l.rest }
  | .paragraph =>
      let (deep, inner) := l.skip 4
      let nextBlank := rest.head?.all isBlank
      if !deep && inside && isUnderline inner.rest then .toReturn b.close
      else if (!deep && interrupts inside nextBlank inner.rest) ||
          atLineEnd inner.withoutBlanks then
        b.close.start number s rest
      else .toReturn b

/-- The rest of a line behind a carriage return that is not at its end. -/
def behindReturn? (s : List Char) : Option (List Char) :=
  match s.dropWhile (· != '\r') with
  | _ :: c :: rest => some (c :: rest)
  | _ => none

def run : Nat → Blocks → Nat → List (List Char) → List Fence
  | 0, b, _, _ => b.close.fences
  | _ + 1, b, _, [] => b.close.fences
  | fuel + 1, b, number, s :: rest =>
      match b.read number s rest with
      | .whole b => run fuel b (number + 1) rest
      | .definition b count => run fuel b (number + count) ((s :: rest).drop count)
      | .toReturn b =>
          match behindReturn? s with
          | some more => run fuel b number (more :: rest)
          | none => run fuel b (number + 1) rest

end Blocks

def lines (s : List Char) : List (List Char) :=
  let pieces := Text.split (· == '\n') s
  if pieces.getLast? == some [] then pieces.dropLast else pieces

/-- The fenced blocks of a text in order. -/
def fences (s : List Char) : List Fence :=
  Blocks.run (s.length + 2) .empty 1 (lines s)

end Traceability.Markdown
