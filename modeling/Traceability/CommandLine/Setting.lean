import Traceability.Text.Blank
import Traceability.Text.Alphanumeric

/-!
Settings in an environment file: a name, an equals sign and a value on each line. A
value may have quoted parts, a dollar sign puts in the value of a variable, and a
blank ends it, after which only a comment may follow. Reading ends at the first line
that breaks a rule.
-/

namespace Traceability.CommandLine

open Text

/-- A piece of a value: a character, or the value of a variable. -/
inductive Piece where
  | char (c : Char)
  | variable (name : String)

structure Setting where
  name : String
  value : List Piece

namespace Setting

/-- Where in a value a character stands. -/
inductive Place where
  | bare
  | single
  | double
  | ended

def escaped? (c : Char) : Option Char :=
  if c == 'n' then some '\n'
  else if c == '\\' || c == '\'' || c == '"' || c == '$' || c == ' ' then some c
  else none

/-- The variable named after a dollar sign, and the rest. A name in braces may hold
any character. -/
def reference? (s : List Char) : Option (String × List Char) :=
  match s with
  | '{' :: rest =>
      let name := rest.takeWhile (· != '}')
      match rest.drop name.length with
      | _ :: rest => some (String.ofList name, rest)
      | [] => none
  | _ =>
      let name := s.takeWhile isAlphanumeric
      some (String.ofList name, s.drop name.length)

/-- The character that ends a name without braces stands for itself, unless it is
another dollar sign. -/
def afterName (braced : Bool) (s : List Char) : List Piece × List Char :=
  match s with
  | c :: rest => if braced || c == '$' then ([], s) else ([.char c], rest)
  | [] => ([], [])

def pieces : Nat → Place → List Char → Option (List Piece)
  | 0, _, _ => none
  | _ + 1, .bare, [] => some []
  | _ + 1, .ended, [] => some []
  | _ + 1, _, [] => none
  | fuel + 1, place, c :: rest =>
      match place with
      | .ended =>
          if c == ' ' || c == '\t' then pieces fuel .ended rest
          else if c == '#' then some []
          else none
      | .single =>
          if c == '\'' then pieces fuel .bare rest
          else (pieces fuel .single rest).map (.char c :: ·)
      | place =>
          let double := match place with
            | .double => true
            | _ => false
          if c == '$' then do
            let (name, after) ← reference? rest
            let (front, after) := afterName (rest.head? == some '{') after
            let later ← pieces fuel place after
            some (.variable name :: (front ++ later))
          else if c == '\\' then
            match rest with
            | [] => if double then none else some []
            | c :: rest => do
                let c ← escaped? c
                let later ← pieces fuel place rest
                some (.char c :: later)
          else if c == '"' then pieces fuel (if double then .bare else .double) rest
          else if double then (pieces fuel place rest).map (.char c :: ·)
          else if c == '\'' then pieces fuel .single rest
          else if c == ' ' || c == '\t' then pieces fuel .ended rest
          else (pieces fuel place rest).map (.char c :: ·)

def startsName (c : Char) : Bool := isAsciiLetter c || c == '_'

def isInName (c : Char) : Bool := isAsciiLetter c || isDigit c || c == '_' || c == '.'

def name? (s : List Char) : Option (List Char × List Char) :=
  if s.head?.any startsName then
    let name := s.takeWhile isInName
    some (name, trimStart (s.drop name.length))
  else none

/-- The name up to an equals sign. The word `export` may stand before it. -/
def assigned? (s : List Char) : Option (List Char × List Char) :=
  match name? s with
  | some (name, '=' :: rest) => some (name, rest)
  | some (name, rest) =>
      if name == "export".toList then
        match name? rest with
        | some (name, '=' :: rest) => some (name, rest)
        | _ => none
      else none
  | none => none

/-- The setting on a line; a blank line and a comment have none. -/
def ofLine? (line : List Char) : Option (Option Setting) :=
  let s := trim line
  if s.isEmpty || s.head? == some '#' then some none
  else do
    let (name, rest) ← assigned? s
    let rest := trimStart rest
    let value ← if rest.head? == some '#' then some [] else pieces (rest.length + 1) .bare rest
    some (some ⟨String.ofList name, value⟩)

/-- The bytes of each line. -/
def lines : List UInt8 → List (List UInt8)
  | [] => [[]]
  | b :: rest =>
      if b == 10 then [] :: lines rest
      else
        match lines rest with
        | line :: later => (b :: line) :: later
        | [] => [[b]]

/-- The settings of lines up to the first that breaks a rule or holds no text. -/
def ofLines : List (List UInt8) → List Setting
  | [] => []
  | line :: rest =>
      match (String.fromUTF8? ⟨line.toArray⟩).bind fun text => ofLine? text.toList with
      | some (some setting) => setting :: ofLines rest
      | some none => ofLines rest
      | none => []

def ofBytes (content : ByteArray) : List Setting := ofLines (lines content.toList)

end Setting

end Traceability.CommandLine
