import Traceability.Number.Shortest
import Traceability.Sorted.Map
import Traceability.Toml.Moment
import Traceability.Toml.Quoted

/-!
Values and the text that writes them on one line. The keys of a table stand in order,
those with plain values first, then lists that hold tables, then tables.
-/

namespace Traceability.Toml

inductive Value where
  | text (s : String)
  | integer (n : Int)
  | float (x : Binary64)
  | boolean (b : Bool)
  | moment (m : Moment)
  | array (elements : List Value)
  | table (entries : List (String × Value))

namespace Value

def isTable : Value → Bool
  | table _ => true
  | _ => false

/-- The rank of a value among the values of a table. -/
def rank : Value → Nat
  | table _ => 2
  | array elements => if elements.any isTable then 1 else 0
  | _ => 0

def floatText : Binary64 → List Char
  | .nan _ => "nan".toList
  | .infinite negative => (if negative then "-inf" else "inf").toList
  | .finite negative steps =>
      let digits :=
        if steps == 0 then "0.0".toList
        else
          let d := Shortest.ofSteps steps
          if 0 ≤ d.exponent then Shortest.positional d ++ ".0".toList else Shortest.positional d
      if negative then '-' :: digits else digits

def isBareKey (s : List Char) : Bool :=
  !s.isEmpty && s.all fun c => Text.isAsciiLetter c || Text.isDigit c || c == '-' || c == '_'

def keyText (s : List Char) : List Char := if isBareKey s then s else Quoted.writtenLine s

/-- The fields of a table within braces; a table without fields has no blank in it. -/
def braced (fields : List (List Char)) : List Char :=
  if fields.isEmpty then ['{', '}']
  else '{' :: ' ' :: Text.join [',', ' '] fields ++ [' ', '}']

/-- The fields of one rank, by key. -/
def fieldsOf (r : Nat) (fields : SortedMap String (Nat × List Char)) : List (List Char) :=
  (fields.entries.filter fun f => f.2.1 == r).map fun f =>
    keyText f.1.toList ++ " = ".toList ++ f.2.2

mutual

def written : Value → List Char
  | text s => Quoted.written s.toList
  | integer n => (toString n).toList
  | float x => floatText x
  | boolean b => (if b then "true" else "false").toList
  | moment m => m.text
  | array elements => '[' :: Text.join [',', ' '] (writtenElements elements) ++ [']']
  | table entries =>
      let fields := SortedMap.ofList (writtenEntries entries)
      braced (fieldsOf 0 fields ++ fieldsOf 1 fields ++ fieldsOf 2 fields)

def writtenElements : List Value → List (List Char)
  | [] => []
  | v :: rest => written v :: writtenElements rest

def writtenEntries : List (String × Value) → List (String × Nat × List Char)
  | [] => []
  | (k, v) :: rest => (k, rank v, written v) :: writtenEntries rest

end

end Value

end Traceability.Toml
