import Traceability.Session
import Traceability.View.Basic

/-!
What a user can ask a session to show.
-/

namespace Traceability

inductive View.Request where
  | list (filter : Option String) (columns : List String)
  | item (tag : String)
  | matrix (request : Matrix.Request)
  | graph (request : Graph.Request)
  | diagnostics

/-- The view that answers a request. A list without a filter shows every item. -/
def Session.view (s : Session) : View.Request → Session × Except Error View
  | .list none columns => (s, .ok (.list s.registry.all columns))
  | .list (some filter) columns =>
      let (s, found) := s.filter filter
      (s, found.map fun items => .list items columns)
  | .item tag => (s, (s.item tag).map .item)
  | .matrix request =>
      let (s, found) := s.pages request
      (s, found.map .matrix)
  | .graph request => (s, (s.graph request).map .graph)
  | .diagnostics => (s, .ok (.diagnostics s.diagnostics.all))

end Traceability
