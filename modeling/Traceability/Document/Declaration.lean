import Traceability.Item

/-!
Declarations of items as they stand in documents, and what can be wrong with one.
-/

namespace Traceability.Document

structure Declaration where
  tag : String
  attributes : Attributes
  line : Nat
deriving DecidableEq

/-- What keeps a document from being read. -/
inductive Fault where
  | directiveTag (origin : Origin) (argument : String)
  | blockTag (origin : Origin) (info : String)
  | blockLine (origin : Origin) (tag text : String)
  | listingValue (origin : Origin) (name tag : String)
  | noListing (document : String)
  | unknownFormat (extension : String)
deriving DecidableEq

def Fault.message : Fault → String
  | directiveTag origin argument =>
      origin.text ++ ": traceable directive takes exactly one tag, got '" ++ argument ++ "'"
  | blockTag origin info =>
      origin.text ++ ": traceable block takes exactly one tag, got '" ++ info ++ "'"
  | blockLine origin tag text =>
      origin.text ++ ": expected 'name: value' in traceable '" ++ tag ++ "', got '" ++ text ++ "'"
  | listingValue origin name tag =>
      origin.text ++ ": attribute '" ++ name ++ "' of '" ++ tag ++
        "' must be a scalar or a list of scalars"
  | noListing document => "YAML parse error in " ++ document
  | unknownFormat extension => "No parser found for extension: " ++ extension

end Traceability.Document
