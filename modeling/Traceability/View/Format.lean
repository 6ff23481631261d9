import Traceability.View.Table
import Traceability.View.Json
import Traceability.View.Dot
import Traceability.Error

/-!
The output formats by name. The DOT language shows graphs only.
-/

namespace Traceability

inductive Format where
  | dot | json | text
deriving DecidableEq, Repr

namespace Format

def all : List Format := [dot, json, text]

def name : Format → String
  | dot => "dot"
  | json => "json"
  | text => "text"

def ofName? (name : String) : Option Format := all.find? fun f => f.name == name

def render (styles : Styles) (view : View) : Format → Except Error String
  | text => .ok (View.Table.ofView view)
  | json => .ok ((Json.ofView view).pretty 0)
  | dot =>
      match view with
      | .graph graph => .ok (View.Dot.ofGraph styles graph)
      | view => .error (.unsupportedView dot.name view.name)

end Format

/-- The text of a view in the format with the given name. -/
def View.render (styles : Styles) (format : String) (view : View) : Except Error String :=
  match Format.ofName? format with
  | some f => f.render styles view
  | none => .error (.unknownFormat format (Format.all.map Format.name))

end Traceability
