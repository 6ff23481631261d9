/-!
Powers of two and of ten.
-/

namespace Traceability

/-- The count of values of a number of bits. -/
def twoTo (n : Nat) : Nat := Nat.pow 2 n

/-- The count of values of a number of decimal digits. -/
def tenTo (n : Nat) : Nat := Nat.pow 10 n

end Traceability
