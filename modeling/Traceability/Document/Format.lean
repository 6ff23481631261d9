import Traceability.Document.Directive
import Traceability.Document.Fenced
import Traceability.Document.Listing

/-!
The formats of documents by the extensions of their names.
-/

namespace Traceability.Document

inductive Format where
  | directives
  | fences
  | listing
deriving DecidableEq, Repr

def Format.ofExtension? (extension : String) : Option Format :=
  if extension ∈ ["rst", "txt"] then some .directives
  else if extension == "md" then some .fences
  else if extension ∈ ["yaml", "yml"] then some .listing
  else none

def Format.read (document : String) (content : List Char) :
    Format → Except Fault (List Declaration)
  | .directives => Directive.read document content
  | .fences => Fenced.read document content
  | .listing => Listing.read document content

/-- The declarations in the text of a document. -/
def read (extension document content : String) : Except Fault (List Declaration) :=
  match Format.ofExtension? extension with
  | some format => format.read document content.toList
  | none => .error (.unknownFormat extension)

end Traceability.Document
