import Traceability.Markdown.Line

/-!
Definitions of link references: a label in square brackets, a colon, a destination and
perhaps a title. There is at most one line break between two of these parts.
-/

namespace Traceability.Markdown.Reference

/-- The text behind the closing bracket of a label of fewer than a thousand characters,
of which one is not blank. -/
def afterLabel : Nat → Bool → List Char → Option (List Char)
  | 0, _, _ => none
  | _ + 1, _, [] => none
  | n + 1, filled, c :: rest =>
      if c == '[' then none
      else if c == ']' then (if filled then some rest else none)
      else if c == '\\' then
        match rest with
        | [] => none
        | _ :: rest => afterLabel n true rest
      else afterLabel n (filled || !isAsciiBlank c) rest

/-- Skips blanks with at most one line break; the answer tells whether there was one. -/
def skipSpace (s : List Char) : Bool × List Char :=
  match s.dropWhile isInner with
  | '\n' :: rest => (true, rest.dropWhile isInner)
  | '\r' :: '\n' :: rest => (true, rest.dropWhile isInner)
  | rest => (false, rest)

/-- The text behind a destination between angle brackets. -/
def afterAngle : List Char → Option (List Char)
  | [] => none
  | c :: rest =>
      if c == '>' then some rest
      else if c == '<' || c == '\n' || c == '\r' then none
      else if c == '\\' then
        match rest with
        | x :: rest => if x == '\n' || x == '\r' then none else afterAngle rest
        | [] => none
      else afterAngle rest

/-- The text behind a destination without brackets, whose parentheses are balanced and
nested at most 32 deep. -/
def afterBare (depth : Nat) : List Char → Option (List Char)
  | [] => if depth = 0 then some [] else none
  | c :: rest =>
      if isAsciiBlank c || c.toNat < 0x20 || c.toNat == 0x7F then
        if depth = 0 then some (c :: rest) else none
      else if c == '(' then (if depth < 32 then afterBare (depth + 1) rest else none)
      else if c == ')' then (if depth = 0 then some (c :: rest) else afterBare (depth - 1) rest)
      else if c == '\\' then
        match rest with
        | [] => some []
        | x :: rest =>
            if isAsciiBlank x then (if depth = 0 then some (x :: rest) else none)
            else afterBare depth rest
      else afterBare depth rest

def afterDestination (s : List Char) : Option (List Char) :=
  match s with
  | '<' :: rest => afterAngle rest
  | _ =>
      match afterBare 0 s with
      | some rest => if rest.length == s.length then none else some rest
      | none => none

def afterQuoted (close : Char) : List Char → Option (List Char)
  | [] => none
  | c :: rest =>
      if c == close then some rest
      else if c == '(' && close == ')' then none
      else if c == '\\' then
        match rest with
        | [] => none
        | _ :: rest => afterQuoted close rest
      else afterQuoted close rest

def afterTitle : List Char → Option (List Char)
  | '"' :: rest => afterQuoted '"' rest
  | '\'' :: rest => afterQuoted '\'' rest
  | '(' :: rest => afterQuoted ')' rest
  | _ => none

/-- The text behind a definition, from the line end after it on. -/
def after? (s : List Char) : Option (List Char) :=
  match s with
  | '[' :: rest => do
      let rest ← afterLabel 1000 false rest
      let rest ← if rest.head? == some ':' then some (rest.drop 1) else none
      let rest ← afterDestination (skipSpace rest).2
      let (broken, title) := skipSpace rest
      if title.length == rest.length && !atLineEnd rest then none
      match (afterTitle title).filter isBlank with
      | some behind => some behind
      | none => if broken || title.isEmpty then some rest else none
  | _ => none

/-- The number of lines that a definition at their start takes. -/
def lineCount (lines : List Char) : Option Nat :=
  (after? lines).map fun rest =>
    ((lines.take (lines.length - rest.length)).count '\n') + 1

end Traceability.Markdown.Reference
