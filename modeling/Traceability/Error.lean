import Traceability.Relationship
import Traceability.Registry
import Traceability.Filter.Expression
import Traceability.Document.Declaration

/-!
The causes for which a request fails, and their messages.
-/

namespace Traceability

/-- Why a file cannot be read. -/
inductive Unreadable where
  | notFound
  | notFolder
  | isFolder
  | notText
  | other (reason : String)
deriving DecidableEq

def Unreadable.message : Unreadable → String
  | notFound => "No such file or directory (os error 2)"
  | notFolder => "Not a directory (os error 20)"
  | isFolder => "Is a directory (os error 21)"
  | notText => "stream did not contain valid UTF-8"
  | other reason => reason

inductive Error where
  | unreadable (reason : Unreadable)
  | relationships (conflict : Relationship.Conflict)
  | configuration (message : String)
  | document (fault : Document.Fault)
  | blankTag (origin : Origin)
  | duplicateTag (duplicate : DuplicateTag)
  | unknownRelationship (name : String) (available : List String)
  | filter (error : Filter.SyntaxError)
  | unknownTag (tag : String)
  | unknownFormat (name : String) (available : List String)
  | unsupportedView (format view : String)

def Error.message : Error → String
  | unreadable reason => "IO error: " ++ reason.message
  | relationships conflict => "Configuration error: " ++ conflict.message
  | configuration message => message
  | document fault => "Parse error: " ++ fault.message
  | blankTag origin => "Parse error: " ++ origin.text ++ ": traceable declared without a tag"
  | duplicateTag duplicate => duplicate.message
  | unknownRelationship name available =>
      "Invalid relationship name '" ++ name ++ "'; configured relationships: " ++
        Text.joined ", " available
  | filter error => error.message
  | unknownTag tag => "No traceable with tag '" ++ tag ++ "' found"
  | unknownFormat name available =>
      "Unknown format '" ++ name ++ "'; available formats: " ++ Text.joined ", " available
  | unsupportedView format view => "Format '" ++ format ++ "' cannot render " ++ view

end Traceability
