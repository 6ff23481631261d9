import Traceability.Filter.Expression

/-!
Parsed filters by their text, the most recently requested first. When there are more
than the capacity admits, the last one leaves. Texts that do not parse are not kept.
-/

namespace Traceability.Filter

structure Cache where
  capacity : Nat
  entries : List (String × Expression)

namespace Cache

def empty (capacity : Nat) : Cache := ⟨max capacity 1, []⟩

def size (c : Cache) : Nat := c.entries.length

def contains (c : Cache) (text : String) : Bool := c.entries.any fun (t, _) => t == text

def clear (c : Cache) : Cache := { c with entries := [] }

def remember (c : Cache) (text : String) (e : Expression) : Cache :=
  { c with entries := ((text, e) :: c.entries.filter fun (t, _) => t != text).take c.capacity }

/-- The cache after a request, and the filter of the requested text. -/
def request (c : Cache) (text : String) : Cache × Except SyntaxError Expression :=
  match c.entries.lookup text with
  | some e => (c.remember text e, .ok e)
  | none =>
      match Expression.parse text with
      | .ok e => (c.remember text e, .ok e)
      | .error err => (c, .error err)

end Cache

end Traceability.Filter
