import Traceability.Item

/-!
Problems found in declarations and in the references between them. Those found when
an item is registered stay until its document is withdrawn; those found by a
resolution are replaced by the next one.
-/

namespace Traceability

inductive Diagnostic.Kind where
  | duplicateTag
  | unresolvedReference
  | invalidAttributeName
deriving DecidableEq, Repr

def Diagnostic.Kind.name : Diagnostic.Kind → String
  | duplicateTag => "duplicate_tag"
  | unresolvedReference => "unresolved_reference"
  | invalidAttributeName => "invalid_attribute_name"

structure Diagnostic where
  kind : Diagnostic.Kind
  tag : String
  message : String
  location : Option Origin
deriving DecidableEq

namespace Diagnostic

def text (d : Diagnostic) : String :=
  match d.location with
  | some origin => origin.text ++ ": " ++ d.message
  | none => d.message

def duplicateTag (tag : String) (origin : Origin) : Diagnostic :=
  ⟨.duplicateTag, tag, "More than one traceable with tag '" ++ tag ++ "' found!", some origin⟩

def unresolvedReference (tag referrer : String) (origin : Option Origin) : Diagnostic :=
  ⟨.unresolvedReference, tag,
    "Traceables: no traceable with tag '" ++ tag ++ "' found (referenced by '" ++ referrer ++ "')",
    origin⟩

def invalidAttributeName (tag name : String) (origin : Origin) : Diagnostic :=
  ⟨.invalidAttributeName, tag,
    "Traceable '" ++ tag ++ "' has invalid attribute name '" ++ name ++
      "'; it cannot be used in filters",
    some origin⟩

def isFrom (document : String) (d : Diagnostic) : Bool :=
  match d.location with
  | some origin => origin.document == document
  | none => false

end Diagnostic

structure Diagnostics where
  registration : List Diagnostic
  resolution : List Diagnostic
deriving DecidableEq

namespace Diagnostics

def empty : Diagnostics := ⟨[], []⟩

def all (d : Diagnostics) : List Diagnostic := d.registration ++ d.resolution

def size (d : Diagnostics) : Nat := d.all.length

def record (d : Diagnostics) (found : List Diagnostic) : Diagnostics :=
  { d with registration := d.registration ++ found }

def withResolution (d : Diagnostics) (found : List Diagnostic) : Diagnostics :=
  { d with resolution := found }

def purge (d : Diagnostics) (document : String) : Diagnostics :=
  { d with registration := d.registration.filter fun x => !x.isFrom document }

/-- Takes back what was said about a kind, tag and place, however often it was said. -/
def dismiss (d : Diagnostics) (kind : Diagnostic.Kind) (tag : String) (origin : Origin) :
    Diagnostics :=
  { d with registration := d.registration.filter fun x =>
      !(decide (x.kind = kind) && x.tag == tag && decide (x.location = some origin)) }

end Diagnostics

end Traceability
