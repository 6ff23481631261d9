import Traceability.Document.Declaration
import Traceability.Yaml.Value

/-!
Declarations listed in a YAML document: a sequence of mappings with a `tag` and, if
wanted, `attributes`. A list of scalars as value is written with commas, and reads like
any other list of tags. The line of a declaration is found in the text by its tag.
-/

namespace Traceability.Document.Listing

open Yaml

/-- An entry as it is listed, before its values are written as texts. -/
structure Entry where
  tag : String
  attributes : SortedMap String Value

/-- Null and the empty plain scalar stand for an empty mapping or list. -/
def isEmptyScalar : Node → Bool
  | .scalar _ plain text => plain && text.isEmpty
  | _ => false

def attributes (d : Yaml.Document) (depth : Nat) (node : Node) :
    Budgeted (SortedMap String Value) := do
  match ← d.follow node with
  | .mapping _ entries =>
      match depth with
      | 0 => failure
      | depth + 1 =>
          let read ← entries.mapM fun (k, v) => return (← d.scalarText k, ← d.value depth v)
          return .ofList read
  | other => if isEmptyScalar other then return ∅ else failure

/-- Reads the fields of an entry. A known field stands once, and others are left unread. -/
def fields (d : Yaml.Document) (depth : Nat) :
    Option String → Option (SortedMap String Value) → List (Node × Node) → Budgeted Entry
  | tag, found, [] =>
      match tag with
      | some tag => return ⟨tag, found.getD ∅⟩
      | none => failure
  | tag, found, (k, v) :: rest => do
      let name ← d.scalarText k
      if name == "tag" then
        if tag.isSome then failure
        let text ← d.scalarText v
        fields d depth (some text) found rest
      else if name == "attributes" then
        if found.isSome then failure
        let map ← attributes d depth v
        fields d depth tag (some map) rest
      else fields d depth tag found rest

def entry (d : Yaml.Document) (depth : Nat) (node : Node) : Budgeted Entry := do
  match ← d.follow node with
  | .mapping _ entries =>
      match depth with
      | 0 => failure
      | depth + 1 => fields d depth none none entries
  | _ => failure

/-- Whether the root of a document stands for no list at all. -/
def isNothing : Node → Bool
  | .scalar none plain text => plain && (text.isEmpty || ScalarText.isNull text)
  | .scalar (some tag) plain text =>
      (plain && text.isEmpty) || (tag == ScalarText.standard "null" && ScalarText.isNull text)
  | _ => false

def entries (d : Yaml.Document) : Budgeted (List Entry) :=
  match d.root with
  | .sequence _ items => items.mapM (entry d (Yaml.Document.depth - 1))
  | root => if isNothing root then return [] else failure

/-- The entries of a text that is a listing. -/
def entries? (text : List Char) : Option (List Entry) :=
  match Yaml.Document.parse? text with
  | none => none
  | some none => some []
  | some (some d) => (entries d).run' d.budget

/-- The text of a scalar; null is empty. -/
def scalarText? : Value → Option String
  | .null => some ""
  | .bool b => some (if b then "true" else "false")
  | .integer n => some (toString n)
  | .float x => some (floatText x)
  | .text s => some s
  | _ => none

/-- The text of a scalar, or of a list of scalars. -/
def valueText? : Value → Option String
  | .sequence items => (items.mapM scalarText?).map (Text.joined ", ")
  | v => scalarText? v

def isQuote (c : Char) : Bool := c == '"' || c == '\''

def dropDashes : Nat → List Char → List Char
  | 0, s => s
  | fuel + 1, s =>
      match s with
      | '-' :: ' ' :: rest => dropDashes fuel rest
      | _ => s

/-- Whether a line gives a tag, with or without quotes. -/
def names (tag line : List Char) : Bool :=
  let line := Text.trim (dropDashes line.length (Text.trimStart line))
  ['t', 'a', 'g', ':'].isPrefixOf line &&
    (((Text.trim (line.drop 4)).dropWhile isQuote).reverse.dropWhile isQuote).reverse == tag

/-- The first line that gives a tag, or else the first line. -/
def locate (content tag : List Char) : Nat :=
  match (Text.lines content).findIdx? (names tag) with
  | some i => i + 1
  | none => 1

/-- The attributes as texts; the first that has none is an error. -/
def texts (tag : String) (origin : Origin) :
    List (String × Value) → Except Fault (List (String × String))
  | [] => .ok []
  | (name, value) :: rest =>
      match valueText? value with
      | none => .error (.listingValue origin name tag)
      | some text => (texts tag origin rest).map ((name, text) :: ·)

def declaration (document : String) (content : List Char) (e : Entry) :
    Except Fault Declaration :=
  let line := locate content e.tag.toList
  let tag := Text.trimmed e.tag
  (texts tag ⟨document, line⟩ e.attributes.entries).map fun found => ⟨tag, .ofList found, line⟩

def read (document : String) (content : List Char) : Except Fault (List Declaration) :=
  match entries? content with
  | none => .error (.noListing document)
  | some found => found.mapM (declaration document content)

end Traceability.Document.Listing
