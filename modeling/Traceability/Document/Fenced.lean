import Traceability.Document.Declaration
import Traceability.Markdown.Block
import Traceability.Markdown.Entity

/-!
Fenced blocks in Markdown whose info text is `traceable` and a tag. Inside, each line
gives an attribute as `name: value`; blank lines and lines that start with `#` do not
count.
-/

namespace Traceability.Document.Fenced

open Text

/-- The name and the value in a line, without the blanks around them. -/
def pair? (s : List Char) : Option (String × String) :=
  match s.dropWhile (· != ':') with
  | [] => none
  | _ :: value =>
      some (String.ofList (trim (s.takeWhile (· != ':'))), String.ofList (trim value))

def isSkipped (s : List Char) : Bool := s.isEmpty || s.head? == some '#'

/-- The attributes in the lines of a block from a line of the document on. -/
def attributes (document tag : String) :
    Nat → Attributes → List (List Char) → Except Fault Attributes
  | _, found, [] => .ok found
  | number, found, line :: rest =>
      let line := trim line
      if isSkipped line then attributes document tag (number + 1) found rest
      else match pair? line with
        | some (name, value) =>
            attributes document tag (number + 1) (found.insert name value) rest
        | none => .error (.blockLine ⟨document, number⟩ tag (String.ofList line))

/-- The declaration in a block; blocks with other info texts have none. -/
def declaration? (document : String) (f : Markdown.Fence) : Except Fault (Option Declaration) :=
  let info := Markdown.Entity.unescaped f.info.length f.info
  match words info with
  | [] => .ok none
  | word :: tags =>
      if word != "traceable".toList then .ok none
      else match tags with
        | [tag] =>
            let tag := String.ofList tag
            (attributes document tag (f.number + 1) ∅ f.lines).map fun found =>
              some ⟨tag, found, f.number⟩
        | _ => .error (.blockTag ⟨document, f.number⟩ (String.ofList info))

def readAll (document : String) : List Markdown.Fence → Except Fault (List Declaration)
  | [] => .ok []
  | f :: rest =>
      match declaration? document f with
      | .error fault => .error fault
      | .ok found => (readAll document rest).map (found.toList ++ ·)

def read (document : String) (content : List Char) : Except Fault (List Declaration) :=
  readAll document (Markdown.fences content)

end Traceability.Document.Fenced
