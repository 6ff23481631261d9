import Traceability.Matrix
import Traceability.Graph
import Traceability.Diagnostic

/-!
The answers to a user's questions, as they are shown in an output format.
-/

namespace Traceability

inductive View where
  | list (items : List Item) (columns : List String)
  | item (item : Item)
  | matrix (pages : List Matrix)
  | graph (graph : Graph)
  | diagnostics (found : List Diagnostic)

namespace View

def name : View → String
  | list _ _ => "list"
  | item _ => "item"
  | matrix _ => "matrix"
  | graph _ => "graph"
  | diagnostics _ => "diagnostics"

/-- Each line with its line feed. -/
def ofLines (lines : List String) : String := String.join (lines.map (· ++ "\n"))

end View

end Traceability
