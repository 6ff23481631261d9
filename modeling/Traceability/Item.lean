import Traceability.Text.Blank
import Traceability.Sorted.Set
import Traceability.Sorted.Map

/-!
Items carry a tag that no other item has. Items with an origin are declared; the
others, placeholders, are only named by declared items and have no attributes.
Relatives are kept by relationship name.
-/

namespace Traceability

/-- A document and the line of a declaration in it, the first line being line 1. -/
structure Origin where
  document : String
  line : Nat
deriving DecidableEq, Inhabited

def Origin.text (o : Origin) : String := o.document ++ ":" ++ toString o.line

abbrev Attributes := SortedMap String String

structure Item where
  tag : String
  attributes : Attributes
  relationships : SortedMap String (SortedSet String)
  origin : Option Origin
deriving DecidableEq, Inhabited

namespace Item

def declared (tag : String) (attributes : Attributes) (origin : Origin) : Item :=
  ⟨tag, attributes, ∅, some origin⟩

def placeholder (tag : String) : Item := ⟨tag, ∅, ∅, none⟩

def isDeclared (i : Item) : Bool := i.origin.isSome

def isFrom (document : String) (i : Item) : Bool :=
  match i.origin with
  | some o => o.document == document
  | none => false

/-- The trimmed `title` attribute, or the tag where that is missing or blank. -/
def title (i : Item) : String :=
  match i.attributes.get? "title" with
  | some t => if Text.isBlankText t then i.tag else Text.trimmed t
  | none => i.tag

def hasTitle (i : Item) : Bool := i.title != i.tag

def relatives (i : Item) (name : String) : List String :=
  match i.relationships.get? name with
  | some tags => tags.toList
  | none => []

def isRelated (i : Item) (name tag : String) : Bool := decide (tag ∈ i.relatives name)

def addRelative (i : Item) (name tag : String) : Item :=
  { i with relationships := i.relationships.alter name fun tags => (tags.getD ∅).insert tag }

def withoutRelatives (i : Item) : Item := { i with relationships := ∅ }

/-- The attributes by name; the name `tag` always stands for the tag. -/
def value? (i : Item) (name : String) : Option String :=
  if name == "tag" then some i.tag else i.attributes.get? name

end Item

/-- A link leads from a tag to a relative under a relationship name. -/
structure Link where
  source : String
  target : String
  name : String
deriving DecidableEq

/-- The tags in the value of a relationship attribute: trimmed, between commas. -/
def splitTags (value : String) : List String :=
  ((Text.split (· == ',') value.toList).map Text.trim).filterMap fun tag =>
    if tag.isEmpty then none else some (String.ofList tag)

end Traceability
