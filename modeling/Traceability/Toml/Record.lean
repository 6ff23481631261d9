import Traceability.Toml.Value

/-!
Reading values of known shape. A table with fixed keys may also be given as an array
of its values in the order of the keys, and a date counts as a table with one reserved
key.
-/

namespace Traceability.Toml

/-- What a table with fixed keys is read from. -/
inductive Record where
  | keyed (entries : List (String × Value))
  | ordered (elements : List Value)

def Record.get? (r : Record) (place : Nat) (key : String) : Option Value :=
  match r with
  | keyed entries => (entries.find? fun e => e.1 == key).map Prod.snd
  | ordered elements => elements[place]?

namespace Value

/-- The key under which a date stands in the table that it counts as. -/
def momentKey : String := "$__toml_private_datetime"

def entries? : Value → Option (List (String × Value))
  | table entries => some entries
  | moment m => some [(momentKey, .text (String.ofList m.text))]
  | _ => none

def record? : Value → Option Record
  | array elements => some (.ordered elements)
  | v => v.entries?.map .keyed

def text? : Value → Option String
  | text s => some s
  | _ => none

def boolean? : Value → Option Bool
  | boolean b => some b
  | _ => none

/-- A natural number of at most 64 bits. -/
def word? : Value → Option Nat
  | integer n => if 0 ≤ n && n < twoTo 64 then some n.toNat else none
  | _ => none

mutual

/-- Whether every integer in a value has at most 64 bits with its sign. -/
def isSmall : Value → Bool
  | integer n => -twoTo 63 ≤ n && n < twoTo 63
  | array elements => areSmall elements
  | table entries => haveSmall entries
  | _ => true

def areSmall : List Value → Bool
  | [] => true
  | v :: rest => isSmall v && areSmall rest

def haveSmall : List (String × Value) → Bool
  | [] => true
  | (_, v) :: rest => isSmall v && haveSmall rest

end

end Value

/-- Reads an optional part; a part of the wrong shape is a fault. -/
def Record.read (r : Record) (place : Nat) (key : String) (shape : Value → Option α)
    (missing : α) : Option α :=
  match r.get? place key with
  | some v => shape v
  | none => some missing

/-- Reads a part that must be there. -/
def Record.require (r : Record) (place : Nat) (key : String) (shape : Value → Option α) :
    Option α :=
  (r.get? place key).bind shape

end Traceability.Toml
