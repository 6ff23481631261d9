import Traceability.Text.Order

/-!
Types with a strict total order that a test decides. Texts, and lists of ranked
values, are ranked by their first difference.
-/

namespace Traceability

class Rank (α : Type) where
  before : α → α → Bool
  irrefl (a : α) : before a a = false
  trans {a b c : α} : before a b = true → before b c = true → before a c = true
  connected {a b : α} : before a b = false → before b a = false → a = b

namespace Rank

variable {α : Type} [Rank α]

theorem asymm {a b : α} (h : before a b = true) : before b a = false := by
  cases hba : before b a with
  | false => rfl
  | true => rw [← irrefl a, trans h hba]

theorem ne_of_before {a b : α} (h : before a b = true) : a ≠ b := by
  rintro rfl
  rw [irrefl] at h
  contradiction

instance : Rank String where
  before s t := Text.precedes s.toList t.toList
  irrefl s := Text.precedes_irrefl s.toList
  trans := Text.precedes_trans
  connected hst hts := String.toList_injective (Text.eq_of_not_precedes hst hts)

/-- The rank that values have by a key. -/
@[reducible] def byKey {β : Type} (key : β → α) (injective : ∀ {a b}, key a = key b → a = b) : Rank β where
  before a b := before (key a) (key b)
  irrefl a := irrefl (key a)
  trans := trans
  connected hab hba := injective (connected hab hba)

def listBefore : List α → List α → Bool
  | _, [] => false
  | [], _ :: _ => true
  | a :: s, b :: t => before a b || (!before b a && listBefore s t)

theorem listBefore_irrefl (s : List α) : listBefore s s = false := by
  induction s with
  | nil => rfl
  | cons a s ih => simp [listBefore, irrefl, ih]

theorem eq_of_not_listBefore {s t : List α} (hst : listBefore s t = false)
    (hts : listBefore t s = false) : s = t := by
  induction s generalizing t with
  | nil =>
    cases t with
    | nil => rfl
    | cons => simp [listBefore] at hst
  | cons a s ih =>
    cases t with
    | nil => simp [listBefore] at hts
    | cons b t =>
      simp only [listBefore, Bool.or_eq_false_iff] at hst hts
      have hab := connected hst.1 hts.1
      subst hab
      simp only [irrefl, Bool.not_false, Bool.true_and] at hst hts
      rw [ih hst.2 hts.2]

theorem listBefore_trans {s t u : List α} (hst : listBefore s t = true)
    (htu : listBefore t u = true) : listBefore s u = true := by
  induction s generalizing t u with
  | nil =>
    cases u with
    | nil => cases t <;> simp [listBefore] at htu
    | cons => rfl
  | cons a s ih =>
    cases t with
    | nil => simp [listBefore] at hst
    | cons b t =>
      cases u with
      | nil => simp [listBefore] at htu
      | cons c u =>
        simp only [listBefore, Bool.or_eq_true, Bool.and_eq_true, Bool.not_eq_true'] at hst htu ⊢
        rcases hst with hab | ⟨hba, hst⟩
        · rcases htu with hbc | ⟨hcb, _⟩
          · exact Or.inl (trans hab hbc)
          · cases hbc : before b c with
            | true => exact Or.inl (trans hab hbc)
            | false => exact Or.inl (connected hbc hcb ▸ hab)
        · cases hab : before a b with
          | true =>
            rcases htu with hbc | ⟨hcb, _⟩
            · exact Or.inl (trans hab hbc)
            · cases hbc : before b c with
              | true => exact Or.inl (trans hab hbc)
              | false => exact Or.inl (connected hbc hcb ▸ hab)
          | false =>
            obtain rfl := connected hab hba
            rcases htu with hbc | ⟨hcb, htu⟩
            · exact Or.inl hbc
            · exact Or.inr ⟨hcb, ih hst htu⟩

instance : Rank (List α) where
  before := listBefore
  irrefl := listBefore_irrefl
  trans := listBefore_trans
  connected := eq_of_not_listBefore

end Rank

end Traceability
