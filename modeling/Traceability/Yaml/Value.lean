import Traceability.Yaml.Node
import Traceability.Number.Shortest

/-!
What the nodes of a YAML document stand for. A plain scalar without tag is null, a
truth value, an integer, a number or a text, by how it is written. Integers must fit
64 bits. Mappings have no key twice. Nodes are nested at most 128 deep, and aliases
are followed at most a hundred times for each mark of the document.
-/

namespace Traceability.Yaml

inductive Value where
  | null
  | bool (value : Bool)
  | integer (value : Int)
  | float (value : Binary64)
  | text (value : String)
  | sequence (items : List Value)
  | mapping (entries : List (Value × Value))
  | tagged (tag : String) (value : Value)

namespace Value

mutual

/-- Mappings are equal if they have equal values under equal keys, in any order. -/
def same : Nat → Value → Value → Bool
  | 0, _, _ => false
  | fuel + 1, a, b =>
      match a, b with
      | null, null => true
      | bool a, bool b => a == b
      | integer a, integer b => a == b
      | float (.nan _), float (.nan _) => true
      | float a, float b => a.equal b
      | text a, text b => a == b
      | sequence a, sequence b => sameAll fuel a b
      | mapping a, mapping b =>
          a.length == b.length && a.all fun (k, v) => b.any fun (k', v') =>
            same fuel k k' && same fuel v v'
      | tagged t a, tagged u b => t == u && same fuel a b
      | _, _ => false

def sameAll : Nat → List Value → List Value → Bool
  | 0, _, _ => false
  | _ + 1, [], [] => true
  | fuel + 1, a :: as, b :: bs => same fuel a b && sameAll fuel as bs
  | _ + 1, _, _ => false

end

/-- More than the depth of any two values that are compared. -/
def sizeBound : Nat := twoTo 32

end Value

namespace ScalarText

def isNull (s : String) : Bool := ["~", "null", "Null", "NULL"].contains s

def bool? (s : String) : Option Bool :=
  if ["true", "True", "TRUE"].contains s then some true
  else if ["false", "False", "FALSE"].contains s then some false
  else none

/-- Digits after a leading zero, which are no numeral. -/
def isPaddedDigits (s : List Char) : Bool :=
  let digits := match s with
    | '-' :: rest => rest
    | '+' :: rest => rest
    | _ => s
  match digits with
  | '0' :: c :: rest => (c :: rest).all Text.isDigit
  | _ => false

def radixed? : List Char → Option Nat
  | '0' :: 'x' :: rest => Numeral.natural? 16 rest
  | '0' :: 'o' :: rest => Numeral.natural? 8 rest
  | '0' :: 'b' :: rest => Numeral.natural? 2 rest
  | _ => none

def natural? (s : List Char) : Option Nat := (radixed? s).or (Numeral.natural? 10 s)

/-- The integer that a text spells: decimal, or with `0x`, `0o` or `0b`, after a sign. -/
def integer? (s : List Char) : Option Int :=
  if isPaddedDigits s then none
  else match s with
    | '-' :: rest => (natural? rest).map fun n => -(n : Int)
    | '+' :: rest => (natural? rest).map fun n => (n : Int)
    | _ => (natural? s).map fun n => (n : Int)

/-- A number in decimal notation, or one of the words for infinity and for no number. -/
def float? (s : List Char) : Option Binary64 :=
  let signless := match s with
    | '+' :: rest => rest
    | _ => s
  let word := String.ofList signless
  if [".inf", ".Inf", ".INF"].contains word then some (.infinite false)
  else if ["-.inf", "-.Inf", "-.INF"].contains (String.ofList s) then some (.infinite true)
  else if [".nan", ".NaN", ".NAN"].contains (String.ofList s) then some (.nan false)
  else if s.head? == some '+' && (signless.head? == some '+' || signless.head? == some '-') then
    none
  else (Numeral.decimal? signless).filter Binary64.isFinite

/-- Integers of 64 bits, with or without sign, are values. -/
def fits (n : Int) : Bool := -(twoTo 63) ≤ n && n < twoTo 64

/-- Integers of 128 bits that do not fit 64 are refused, larger ones are floats. -/
def isRefused (n : Int) : Bool := !fits n && -(twoTo 127) ≤ n && n < twoTo 128

/-- The value of a plain scalar without tag; a refused integer has none. -/
def untagged? (text : String) : Option Value :=
  let s := text.toList
  if text.isEmpty || isNull text then some .null
  else match bool? text with
    | some b => some (.bool b)
    | none =>
        match (integer? s).filter fun n => fits n || isRefused n with
        | some n => if fits n then some (.integer n) else none
        | none =>
            match (if isPaddedDigits s then none else float? s) with
            | some x => some (.float x)
            | none => some (.text text)

def taggedInteger? (s : List Char) : Option Value :=
  ((integer? s).filter fits).map .integer

def standard (name : String) : String := "tag:yaml.org,2002:" ++ name

/-- The value of a scalar with a tag that is not local. -/
def tagged? (tag text : String) : Option Value :=
  if tag == standard "bool" then (bool? text).map .bool
  else if tag == standard "int" then taggedInteger? text.toList
  else if tag == standard "float" then (float? text.toList).map .float
  else if tag == standard "null" then (if isNull text then some .null else none)
  else some (.text text)

def isLocal (tag : String) : Bool := tag.toList.head? == some '!'

def plainValue? (plain : Bool) (text : String) : Option Value :=
  if plain then untagged? text else some (.text text)

def value? (tag : Option String) (plain : Bool) (text : String) : Option Value :=
  match tag with
  | none => plainValue? plain text
  | some tag =>
      if isLocal tag then (plainValue? plain text).map (.tagged tag) else tagged? tag text

end ScalarText

/-- Following aliases uses up a budget, and nothing is found once it is spent. -/
abbrev Budgeted := StateT Nat Option

namespace Document

/-- The node itself, or the one that a reference means. -/
def follow (d : Document) : Node → Budgeted Node
  | .reference number => do
      match ← get with
      | 0 => failure
      | n + 1 =>
          set n
          match d.anchored.lookup number with
          | some node => return node
          | none => failure
  | node => return node

def budget (d : Document) : Nat := 100 * d.size

/-- Nodes may be nested this deep. -/
def depth : Nat := 128

def localize (tag : Option String) (v : Value) : Value :=
  match tag with
  | some tag => if ScalarText.isLocal tag then .tagged tag v else v
  | none => v

/-- Adds entries to a mapping, none of them under a key that is there. -/
def addAll (value : Node → Budgeted Value) (entries : List (Value × Value)) :
    List (Node × Node) → Budgeted (List (Value × Value))
  | [] => return entries
  | (k, v) :: rest => do
      let key ← value k
      if entries.any fun (k', _) => k'.same Value.sizeBound key then failure
      let item ← value v
      addAll value (entries ++ [(key, item)]) rest

/-- The value of a node at most `depth` levels deep. -/
def value (d : Document) (depth : Nat) (node : Node) : Budgeted Value := do
  match ← d.follow node with
  | .scalar tag plain text => (ScalarText.value? tag plain text : Option Value)
  | .sequence tag items =>
      match depth with
      | 0 => failure
      | depth + 1 => return localize tag (.sequence (← items.mapM (d.value depth)))
  | .mapping tag entries =>
      match depth with
      | 0 => failure
      | depth + 1 => return localize tag (.mapping (← addAll (d.value depth) [] entries))
  | .reference _ => failure

/-- The text of a scalar, whatever its tag. -/
def scalarText (d : Document) (node : Node) : Budgeted String := do
  match ← d.follow node with
  | .scalar _ _ text => return text
  | _ => failure

end Document

/-- The shortest notation of a number that reads back. -/
def floatText : Binary64 → String
  | .nan _ => ".nan"
  | .infinite negative => if negative then "-.inf" else ".inf"
  | .finite negative steps =>
      let digits :=
        if steps = 0 then ['0', '.', '0']
        else Shortest.scientificOutside (-5) 16 (Shortest.ofSteps steps)
      String.ofList (if negative then '-' :: digits else digits)

end Traceability.Yaml
