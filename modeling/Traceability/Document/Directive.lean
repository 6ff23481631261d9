import Traceability.Document.Declaration

/-!
Directives in plain text. A directive is a line such as `.. traceable:: TAG`, and the
lines below it that are indented further can give its attributes, one `:name: value`
a line. A line that is indented further than the attribute above it continues that
attribute's value. A blank line, or any other line, ends the directive.
-/

namespace Traceability.Document.Directive

open Text

/-- The blanks before a line, counted in bytes of UTF-8. -/
def indentOf (line : List Char) : Nat :=
  (line.takeWhile isBlank).foldl (fun width c => width + c.utf8Size) 0

def afterPrefix? (start line : List Char) : Option (List Char) :=
  if start.isPrefixOf line then some (line.drop start.length) else none

/-- What a line has after its marker, if it starts a directive. -/
def argument? (line : List Char) : Option (List Char) :=
  match afterPrefix? ['.', '.'] (trimStart line) with
  | none => none
  | some rest =>
      if (rest.takeWhile isBlank).isEmpty then none
      else afterPrefix? "traceable::".toList (trimStart rest)

/-- The name and the value that a line gives, both trimmed. -/
def option? (line : List Char) : Option (List Char × List Char) :=
  if (line.takeWhile isBlank).isEmpty then none
  else match trimStart line with
    | ':' :: c :: rest =>
        if c == ':' || isBlank c then none
        else match rest.dropWhile (· != ':') with
          | [] => none
          | _ :: value =>
              if value.isEmpty || value.head?.any isBlank then
                some (trim (c :: rest.takeWhile (· != ':')), trim value)
              else none
    | _ => none

/-- A directive whose lines are still being read: its indent, and the name and the
indent of the attribute that the next line may continue. -/
structure Opened where
  declaration : Declaration
  indent : Nat
  last : Option (String × Nat)

def continued (value more : String) : String :=
  if value.isEmpty then more else value ++ " " ++ more

/-- The directive with one more line, if the line belongs to it. -/
def Opened.absorb (o : Opened) (line : List Char) : Option Opened :=
  if line.all isBlank || indentOf line ≤ o.indent then none
  else
    let d := o.declaration
    match option? line with
    | some (name, value) =>
        let name := String.ofList name
        some { o with
          declaration := { d with attributes := d.attributes.insert name (String.ofList value) }
          last := some (name, indentOf line) }
    | none =>
        match o.last with
        | none => none
        | some (name, indent) =>
            if indentOf line ≤ indent then none
            else
              let more := String.ofList (trim line)
              some { o with
                declaration := { d with
                  attributes := d.attributes.modify name fun value => continued value more } }

/-- The directive that a line starts, if it starts one. -/
def start (document : String) (number : Nat) (line : List Char) :
    Except Fault (Option Opened) :=
  match argument? line with
  | none => .ok none
  | some argument =>
      let argument := trim argument
      if argument.isEmpty || argument.any isBlank then
        .error (.directiveTag ⟨document, number⟩ (String.ofList argument))
      else .ok (some ⟨⟨String.ofList argument, ∅, number⟩, indentOf line, none⟩)

def Opened.finished (o : Option Opened) : List Declaration := (o.map Opened.declaration).toList

/-- The declarations in lines that follow an open directive. -/
def scan (document : String) (number : Nat) (opened : Option Opened) :
    List (List Char) → Except Fault (List Declaration)
  | [] => .ok (Opened.finished opened)
  | line :: rest =>
      match opened.bind fun o => o.absorb line with
      | some o => scan document (number + 1) (some o) rest
      | none =>
          match start document number line with
          | .error fault => .error fault
          | .ok next =>
              (scan document (number + 1) next rest).map (Opened.finished opened ++ ·)

def read (document : String) (content : List Char) : Except Fault (List Declaration) :=
  scan document 1 none (lines content)

end Traceability.Document.Directive
