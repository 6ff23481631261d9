import Traceability.Text.Blank
import Traceability.Number.Numeral
import Traceability.View.Basic
import Traceability.View.Style

/-!
Graphs in the DOT language: a line for each item, then one for each edge. Labels are
filled to the width that the style attribute `textwrap` gives. In a quoted text a
backslash stands before every quote and backslash, and a line feed is written as `\n`.
-/

namespace Traceability.View.Dot

open Text

def escape (c : Char) : List Char :=
  if c == '\\' then ['\\', '\\']
  else if c == '"' then ['\\', '"']
  else if c == '\n' then ['\\', 'n']
  else [c]

def quoted (s : String) : String := String.ofList ('"' :: s.toList.flatMap escape ++ ['"'])

/-- Adds words to a line as long as they fit its width, and then starts the next line. -/
def fill (width : Nat) (line : List Char) : List (List Char) → List (List Char)
  | [] => [line]
  | word :: words =>
      if line.length + 1 + word.length ≤ width then fill width (line ++ ' ' :: word) words
      else line :: fill width word words

/-- The words of a text in lines of at most the given width, or of a single word. -/
def wrap (width : Nat) (s : List Char) : List (List Char) :=
  match words s with
  | [] => []
  | word :: words => fill width word words

def styleOf (styles : Styles) (item : Item) : Style :=
  let base := if item.isDeclared then Style.defaultName else Style.unresolvedName
  let style := (styles.get? base).getD ∅
  match (item.attributes.get? "category").bind styles.get? with
  | some overlay => style.merge overlay
  | none => style

/-- The width of labels; a text that is no positive number gives none. -/
def wrapWidth (style : Style) : Option Nat :=
  match (style.get? "textwrap").bind fun w => Numeral.bounded? (twoTo 64 - 1) w.toList with
  | some width => if width = 0 then none else some width
  | none => none

def label (style : Style) (title : String) : String :=
  match wrapWidth style with
  | some width => String.ofList (Text.join ['\n'] (wrap width title.toList))
  | none => title

def setting (name value : String) : String := name ++ "=" ++ quoted value

def node (styles : Styles) (item : Item) : String :=
  let style := styleOf styles item
  let settings := (style.erase "textwrap").entries.map fun (name, value) => setting name value
  "    " ++ quoted item.tag ++ " [" ++
    joined " " (setting "label" (label style item.title) :: settings) ++ "]"

def edge (e : Graph.Edge) : String :=
  let settings := if e.direction = .symmetric then [setting "dir" "none"] else []
  "    " ++ quoted e.source ++ " -> " ++ quoted e.target ++ " [" ++
    joined " " (setting "label" e.relationship :: settings) ++ "]"

def header : List String :=
  ["digraph \"Traceable relationships\" \x7b", "    rankdir=LR"] ++
    ["graph", "node", "edge"].map fun kind =>
      "    " ++ kind ++ " [fontname=\"helvetica\" fontsize=\"7.5\"]"

def ofGraph (styles : Styles) (g : Graph) : String :=
  ofLines (header ++ g.traceables.map (node styles) ++ g.edges.map edge ++ ["\x7d"])

end Traceability.View.Dot
