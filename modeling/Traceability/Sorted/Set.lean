import Traceability.Sorted.Rank

/-!
Finite sets kept as strictly increasing lists, so that equal sets are equal values.
-/

namespace Traceability

structure SortedSet (α : Type) [Rank α] where
  toList : List α
  increasing : toList.Pairwise fun a b => Rank.before a b = true

namespace SortedSet

variable {α : Type} [Rank α]

def place (a : α) : List α → List α
  | [] => [a]
  | b :: rest =>
      if Rank.before a b then a :: b :: rest
      else if Rank.before b a then b :: place a rest
      else b :: rest

theorem mem_place {a x : α} {l : List α} : x ∈ place a l ↔ x = a ∨ x ∈ l := by
  induction l with
  | nil => simp [place]
  | cons b l ih =>
    simp only [place]
    split
    · simp
    · split
      · simp only [List.mem_cons, ih]
        constructor <;> (rintro (h | h | h) <;> simp [h])
      · rename_i hab hba
        rw [Rank.connected (Bool.eq_false_iff.mpr hab) (Bool.eq_false_iff.mpr hba)]
        simp

theorem increasing_place {a : α} {l : List α}
    (h : l.Pairwise fun a b => Rank.before a b = true) :
    (place a l).Pairwise fun a b => Rank.before a b = true := by
  induction l with
  | nil => simp [place]
  | cons b l ih =>
    rw [List.pairwise_cons] at h
    simp only [place]
    split
    · rename_i hab
      refine List.pairwise_cons.mpr ⟨fun x hx => ?_, List.pairwise_cons.mpr h⟩
      rcases List.mem_cons.mp hx with rfl | hx
      · exact hab
      · exact Rank.trans hab (h.1 x hx)
    · split
      · rename_i hba
        refine List.pairwise_cons.mpr ⟨fun x hx => ?_, ih h.2⟩
        rcases mem_place.mp hx with rfl | hx
        · exact hba
        · exact h.1 x hx
      · exact List.pairwise_cons.mpr h

def empty : SortedSet α := ⟨[], List.Pairwise.nil⟩

instance : EmptyCollection (SortedSet α) := ⟨empty⟩

instance : Inhabited (SortedSet α) := ⟨empty⟩

def insert (a : α) (s : SortedSet α) : SortedSet α := ⟨place a s.toList, increasing_place s.increasing⟩

def ofList (l : List α) : SortedSet α := l.foldl (fun s a => s.insert a) empty

def filter (p : α → Bool) (s : SortedSet α) : SortedSet α :=
  ⟨s.toList.filter p, s.increasing.filter p⟩

def contains [DecidableEq α] (s : SortedSet α) (a : α) : Bool := decide (a ∈ s.toList)

def isEmpty (s : SortedSet α) : Bool := s.toList.isEmpty

instance [DecidableEq α] : DecidableEq (SortedSet α) := fun s t =>
  if h : s.toList = t.toList then
    isTrue (by cases s; cases t; cases h; rfl)
  else isFalse fun e => h (congrArg toList e)

theorem toList_insert (a : α) (s : SortedSet α) : (s.insert a).toList = place a s.toList := rfl

theorem mem_insert {a x : α} {s : SortedSet α} : x ∈ (s.insert a).toList ↔ x = a ∨ x ∈ s.toList :=
  mem_place

end SortedSet

end Traceability
