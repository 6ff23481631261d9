import Traceability.Text.Blank
import Traceability.Text.Capital
import Traceability.View.Basic

/-!
Plain text for terminals. A table has a header, a rule of dashes and a line for each
row; its columns are as wide as their longest cell and stand two blanks apart.
-/

namespace Traceability.View.Table

open Text

def pad (width : Nat) (cell : List Char) : List Char :=
  cell ++ List.replicate (width - cell.length) ' '

/-- Cells padded to the widths of their columns, without blanks at the end. -/
def line (widths : List Nat) (cells : List (List Char)) : List Char :=
  trimEnd (Text.join [' ', ' '] (List.zipWith pad widths cells))

def widen (widths : List Nat) (cells : List (List Char)) : List Nat :=
  List.zipWith (fun width cell => max width cell.length) widths cells

def widths (header : List (List Char)) (rows : List (List (List Char))) : List Nat :=
  rows.foldl widen (header.map List.length)

def lines (header : List (List Char)) (rows : List (List (List Char))) : List (List Char) :=
  let w := widths header rows
  line w header :: line w (w.map fun n => List.replicate n '-') :: rows.map (line w)

def table (header : List String) (rows : List (List String)) : String :=
  ofLines ((lines (header.map String.toList) (rows.map (·.map String.toList))).map String.ofList)

def capital (s : String) : String := String.ofList (capitalized s.toList)

/-- An item's cell in a column: its tag, its title if it has one, or an attribute. -/
def cell (item : Item) (column : String) : String :=
  if column == "tag" then item.tag
  else if column == "title" then (if item.hasTitle then item.title else "")
  else (item.attributes.get? column).getD ""

def ofList (items : List Item) (columns : List String) : String :=
  if items.isEmpty then "No traceables found\n"
  else
    let columns := "tag" :: "title" :: columns
    table (columns.map capital) (items.map fun item => columns.map (cell item))

def heading (item : Item) : String :=
  if item.hasTitle then item.tag ++ " -- " ++ item.title else item.tag

def headed (name : String) (lines : List String) : List String :=
  if lines.isEmpty then [] else ("  " ++ name ++ ":") :: lines

def ofItem (item : Item) : String :=
  let declared := match item.origin with
    | some origin => "  declared at " ++ origin.text
    | none => "  unresolved (referenced but never declared)"
  let attributes := item.attributes.entries.map fun (name, value) =>
    "    " ++ name ++ ": " ++ value
  let relationships := item.relationships.entries.map fun (name, tags) =>
    "    " ++ name ++ ": " ++ joined ", " tags.toList
  ofLines (heading item :: declared ::
    headed "attributes" attributes ++ headed "relationships" relationships)

def ofPage (m : Matrix) : String :=
  table ((capital m.relationship ++ " \\ " ++ m.opposite) :: m.secondaries)
    (m.primaries.map fun primary =>
      primary :: (m.row primary).map fun related => if related then "x" else "")

def ofPages (pages : List Matrix) : String :=
  if pages.all Matrix.isEmpty then "No related traceables\n"
  else match pages with
    | [page] => ofPage page
    | pages =>
        joined "\n" (pages.mapIdx fun n page =>
          "Page " ++ toString (n + 1) ++ "/" ++ toString pages.length ++ "\n" ++ ofPage page)

def node (item : Item) : String :=
  "  " ++ heading item ++ (if item.isDeclared then "" else " (unresolved)")

def arrow (e : Graph.Edge) : String :=
  match e.direction with
  | .symmetric => "-" ++ e.relationship ++ "-"
  | _ => "-" ++ e.relationship ++ "->"

def ofGraph (g : Graph) : String :=
  ofLines ("Traceables:" :: g.traceables.map node ++ "Relationships:" ::
    g.edges.map fun e => "  " ++ e.source ++ " " ++ arrow e ++ " " ++ e.target)

def ofDiagnostics (found : List Diagnostic) : String :=
  if found.isEmpty then "No problems found\n"
  else ofLines (found.map Diagnostic.text ++ [toString found.length ++ " problem(s) found"])

def ofView : View → String
  | .list items columns => ofList items columns
  | .item i => ofItem i
  | .matrix pages => ofPages pages
  | .graph g => ofGraph g
  | .diagnostics found => ofDiagnostics found

end Traceability.View.Table
