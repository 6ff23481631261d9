import Traceability.Text.Blank

/-!
Paths as texts and as components. The components of a path leave out repeated
slashes and single dots, but a leading slash is the component `/` and a leading dot
is the component `.`. One path lies below another if the other's components begin it.
-/

namespace Traceability.Path

open Text

def isAbsolute (path : List Char) : Bool := path.head? == some '/'

def pieces (path : List Char) : List (List Char) := split (· == '/') path

/-- Whether a piece of a path stands for the place reached so far. -/
def staysPut (piece : List Char) : Bool := piece.isEmpty || piece == ['.']

def components (path : List Char) : List (List Char) :=
  let named := (pieces path).filter fun piece => !staysPut piece
  if isAbsolute path then ['/'] :: named
  else if (pieces path).head? == some ['.'] then ['.'] :: named
  else named

def isBelow (path root : List Char) : Bool := (components root).isPrefixOf (components path)

def join (base path : List Char) : List Char :=
  if isAbsolute path || base.isEmpty then path
  else if base.getLast? == some '/' then base ++ path
  else base ++ '/' :: path

/-- The last component, if it is a name. -/
def fileName? (path : List Char) : Option (List Char) :=
  match (components path).getLast? with
  | some name => if name == ['/'] || name == ['.'] || name == ['.', '.'] then none else some name
  | none => none

/-- What follows the last point of a name, unless the name starts with it. -/
def extensionOf (name : List Char) : List Char :=
  let reversed := name.reverse
  if (reversed.takeWhile (· != '.')).length + 1 < name.length then
    (reversed.takeWhile (· != '.')).reverse
  else []

/-- The path without its last component, as it is written. -/
def parent? (path : List Char) : Option (List Char) :=
  let lead := if isAbsolute path then 1 else 0
  let kept := (pieces (path.drop lead)).reverse.dropWhile staysPut
  let written (pieces : List (List Char)) : List Char :=
    path.take lead ++ Text.join ['/'] pieces.reverse
  match kept with
  | _ :: before =>
      let before := before.dropWhile staysPut
      if before.isEmpty && (components path).head? == some ['.'] then some ['.']
      else some (written before)
  | [] => if components path == [['.']] then some [] else none

end Traceability.Path
