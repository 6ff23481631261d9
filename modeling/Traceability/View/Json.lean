import Traceability.Text.Blank
import Traceability.View.Basic

/-!
JSON for other tools, laid out with one element or field a line and two blanks for
each level. Quotes, backslashes and control characters are escaped.
-/

namespace Traceability

inductive Json where
  | null
  | bool (value : Bool)
  | number (value : Nat)
  | text (value : String)
  | array (elements : List Json)
  | object (fields : List (String × Json))

namespace Json

def hexDigit (n : Nat) : Char := Nat.digitChar n

def escape (c : Char) : List Char :=
  if c == '"' then ['\\', '"']
  else if c == '\\' then ['\\', '\\']
  else if c == '\n' then ['\\', 'n']
  else if c == '\r' then ['\\', 'r']
  else if c == '\t' then ['\\', 't']
  else if c.toNat == 8 then ['\\', 'b']
  else if c.toNat == 12 then ['\\', 'f']
  else if c.toNat < 32 then
    ['\\', 'u', '0', '0', hexDigit (c.toNat / 16), hexDigit (c.toNat % 16)]
  else [c]

def encode (s : List Char) : List Char := '"' :: s.flatMap escape ++ ['"']

def quoted (s : String) : String := String.ofList (encode s.toList)

def newline (level : Nat) : String := "\n" ++ String.ofList (List.replicate (2 * level) ' ')

mutual

def pretty (level : Nat) : Json → String
  | null => "null"
  | bool value => if value then "true" else "false"
  | number value => toString value
  | text value => quoted value
  | array [] => "[]"
  | array (e :: elements) =>
      "[" ++ newline (level + 1) ++ e.pretty (level + 1) ++ prettyElements (level + 1) elements ++
        newline level ++ "]"
  | object [] => "\x7b\x7d"
  | object ((name, e) :: fields) =>
      "\x7b" ++ newline (level + 1) ++ quoted name ++ ": " ++ e.pretty (level + 1) ++
        prettyFields (level + 1) fields ++ newline level ++ "\x7d"

def prettyElements (level : Nat) : List Json → String
  | [] => ""
  | e :: elements => "," ++ newline level ++ e.pretty level ++ prettyElements level elements

def prettyFields (level : Nat) : List (String × Json) → String
  | [] => ""
  | (name, e) :: fields =>
      "," ++ newline level ++ quoted name ++ ": " ++ e.pretty level ++ prettyFields level fields

end

def texts (l : List String) : Json := array (l.map text)

def ofOrigin : Option Origin → Json
  | some o => object [("document", text o.document), ("line", number o.line)]
  | none => null

def ofItem (i : Item) : Json :=
  object
    [("tag", text i.tag),
      ("attributes", object (i.attributes.entries.map fun (name, value) => (name, text value))),
      ("relationships",
        object (i.relationships.entries.map fun (name, tags) => (name, texts tags.toList))),
      ("origin", ofOrigin i.origin)]

def ofMatrix (m : Matrix) : Json :=
  object
    [("relationship", text m.relationship), ("opposite", text m.opposite),
      ("primaries", texts m.primaries), ("secondaries", texts m.secondaries),
      ("rows", array (m.primaries.map fun primary => array ((m.row primary).map bool)))]

def ofEdge (e : Graph.Edge) : Json :=
  object
    [("source", text e.source), ("target", text e.target),
      ("relationship", text e.relationship), ("direction", text e.direction.name)]

def ofGraph (g : Graph) : Json :=
  object
    [("traceables", array (g.traceables.map ofItem)),
      ("relationships", array (g.edges.map ofEdge))]

def ofDiagnostic (d : Diagnostic) : Json :=
  object
    [("kind", text d.kind.name), ("tag", text d.tag), ("message", text d.message),
      ("location", ofOrigin d.location)]

def ofView : View → Json
  | .list items _ => array (items.map ofItem)
  | .item item => ofItem item
  | .matrix pages => array (pages.map ofMatrix)
  | .graph graph => ofGraph graph
  | .diagnostics found => array (found.map ofDiagnostic)

end Json

end Traceability
