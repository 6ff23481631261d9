/-!
Texts are ordered by their code points, one after the other; a text stands before
its own extensions. The order is a strict total order.
-/

namespace Traceability.Text

def precedes : List Char → List Char → Bool
  | _, [] => false
  | [], _ :: _ => true
  | a :: s, b :: t =>
      if a.toNat < b.toNat then true
      else if b.toNat < a.toNat then false
      else precedes s t

theorem precedes_irrefl (s : List Char) : precedes s s = false := by
  induction s with
  | nil => rfl
  | cons c s ih => simp [precedes, ih]

theorem precedes_trans {s t u : List Char} (hst : precedes s t = true)
    (htu : precedes t u = true) : precedes s u = true := by
  induction s generalizing t u with
  | nil =>
    cases u with
    | nil => simp [precedes] at htu
    | cons => rfl
  | cons a s ih =>
    cases t with
    | nil => simp [precedes] at hst
    | cons b t =>
      cases u with
      | nil => simp [precedes] at htu
      | cons c u =>
        simp only [precedes] at hst htu ⊢
        split at hst
        · split at htu
          · rw [if_pos (by omega)]
          · split at htu
            · contradiction
            · rw [if_pos (by omega)]
        · split at hst
          · contradiction
          · split at htu
            · rw [if_pos (by omega)]
            · split at htu
              · contradiction
              · rw [if_neg (by omega), if_neg (by omega)]
                exact ih hst htu

theorem toNat_injective {a b : Char} (h : a.toNat = b.toNat) : a = b :=
  Char.ext (UInt32.toNat_inj.mp h)

theorem eq_of_not_precedes {s t : List Char} (hst : precedes s t = false)
    (hts : precedes t s = false) : s = t := by
  induction s generalizing t with
  | nil =>
    cases t with
    | nil => rfl
    | cons => simp [precedes] at hst
  | cons a s ih =>
    cases t with
    | nil => simp [precedes] at hts
    | cons b t =>
      simp only [precedes] at hst hts
      split at hst
      · contradiction
      · split at hst
        · split at hts
          · contradiction
          · omega
        · rw [if_neg (by omega), if_neg (by omega)] at hts
          rw [toNat_injective (by omega : a.toNat = b.toNat), ih hst hts]

def compare (s t : String) : Ordering :=
  if precedes s.toList t.toList then .lt
  else if precedes t.toList s.toList then .gt
  else .eq

end Traceability.Text
