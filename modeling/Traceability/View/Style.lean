import Traceability.Sorted.Map

/-!
Styles of graph nodes by name. Declared items have the default style and the others
the style of unresolved items; an item's category can change either.
-/

namespace Traceability

abbrev Style := SortedMap String String

abbrev Styles := SortedMap String Style

namespace Style

def defaultName : String := "__default__"

def unresolvedName : String := "__unresolved__"

def standard : Styles :=
  .ofList
    [(defaultName, .ofList [("shape", "box"), ("textwrap", "16")]),
      (unresolvedName, .ofList
        [("shape", "box"), ("style", "filled"), ("color", "gray80"), ("fillcolor", "white"),
          ("fontcolor", "gray30")])]

/-- Styles with others written over them, name by name and key by key. -/
def overlay (base changes : Styles) : Styles :=
  changes.entries.foldl
    (fun styles (name, style) => styles.alter name fun s => (s.getD ∅).merge style) base

end Style

end Traceability
