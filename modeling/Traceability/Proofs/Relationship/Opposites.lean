import Traceability.Relationship
import Traceability.Proofs.Sorted.Lookup

/-!
The opposites of an accepted list of relationships are exactly the pairs of names
that the list declares, read from either end. Being an opposite is symmetric.
-/

namespace Traceability.Relationship

/-- One name stands at an end of the relationship and the other at its other end. -/
def Pairs (r : Relationship) (name other : String) : Prop :=
  name = r.forward ∧ other = r.backward ∨ name = r.backward ∧ other = r.forward

theorem pairs_comm (r : Relationship) (name other : String) :
    r.Pairs name other ↔ r.Pairs other name := by
  unfold Pairs
  constructor <;> (rintro (⟨rfl, rfl⟩ | ⟨rfl, rfl⟩) <;> simp)

theorem exists_pairs_iff (r : Relationship) (name : String) :
    (∃ other, r.Pairs name other) ↔ name = r.forward ∨ name = r.backward := by
  unfold Pairs
  constructor
  · rintro ⟨other, ⟨hname, -⟩ | ⟨hname, -⟩⟩
    · exact Or.inl hname
    · exact Or.inr hname
  · rintro (hname | hname)
    · exact ⟨r.backward, Or.inl ⟨hname, rfl⟩⟩
    · exact ⟨r.forward, Or.inr ⟨hname, rfl⟩⟩

namespace Index

theorem get?_of_addOpposite {opposites added : SortedMap String String} {name other : String}
    (h : addOpposite opposites name other = .ok added) (n m : String) :
    added.get? n = some m ↔ n = name ∧ m = other ∨ opposites.get? n = some m := by
  unfold addOpposite at h
  cases hg : opposites.get? name with
  | none =>
    rw [hg] at h
    obtain rfl := Except.ok.inj h
    rw [SortedMap.get?_insert]
    by_cases hn : n = name
    · simp [hn, hg, eq_comm]
    · simp [hn]
  | some known =>
    rw [hg] at h
    by_cases hk : known = other
    · simp only [hk, if_true] at h
      obtain rfl := Except.ok.inj h
      refine (or_iff_right_of_imp ?_).symm
      intro hparts
      obtain ⟨rfl, rfl⟩ := hparts
      rw [hg, hk]
    · simp [hk] at h

/-- An index takes a relationship if it is well formed and gives no name a second
opposite. -/
theorem add_ok {x y : Index} {r : Relationship} (h : x.add r = .ok y) :
    r.check = .ok () ∧ y.types = x.types ++ [r] ∧
    ∃ opposites, addOpposite x.opposites r.forward r.backward = .ok opposites ∧
      addOpposite opposites r.backward r.forward = .ok y.opposites := by
  unfold add at h
  cases hcheck : r.check with
  | error e => simp [hcheck] at h
  | ok =>
    rw [hcheck] at h
    cases hfirst : addOpposite x.opposites r.forward r.backward with
    | error e => simp [hfirst] at h
    | ok opposites =>
      cases hsecond : addOpposite opposites r.backward r.forward with
      | error e => simp [hfirst, hsecond] at h
      | ok both =>
        simp only [hfirst, hsecond, Except.ok.injEq] at h
        subst h
        exact ⟨rfl, rfl, opposites, rfl, hsecond⟩

/-- The opposites are exactly those that the types of the index declare. -/
def Exact (x : Index) : Prop :=
  ∀ name other, x.opposite? name = some other ↔ ∃ r ∈ x.types, r.Pairs name other

theorem exact_empty : empty.Exact := by
  intro name other
  simp [opposite?, empty]

theorem exact_add {x y : Index} {r : Relationship} (hx : x.Exact) (h : x.add r = .ok y) :
    y.Exact := by
  obtain ⟨-, htypes, opposites, hfirst, hsecond⟩ := add_ok h
  intro name other
  unfold opposite?
  rw [get?_of_addOpposite hsecond, get?_of_addOpposite hfirst, ← opposite?, hx name other, htypes]
  simp only [List.mem_append, List.mem_singleton, Pairs]
  constructor
  · intro hcases
    rcases hcases with hpair | hpair | ⟨r', hr', hpair⟩
    · exact ⟨r, Or.inr rfl, Or.inr hpair⟩
    · exact ⟨r, Or.inr rfl, Or.inl hpair⟩
    · exact ⟨r', Or.inl hr', hpair⟩
  · intro hparts
    obtain ⟨r', hr' | rfl, hpair⟩ := hparts
    · exact Or.inr (Or.inr ⟨r', hr', hpair⟩)
    · exact hpair.elim (fun hp => Or.inr (Or.inl hp)) Or.inl

/-- What every accepted relationship preserves holds of an accepted list of them. -/
theorem foldlM_add_preserves {P : Index → Prop}
    (hadd : ∀ x y r, P x → x.add r = .ok y → P y) {types : List Relationship} {x y : Index}
    (hx : P x) (h : types.foldlM add x = .ok y) : P y ∧ y.types = x.types ++ types := by
  induction types generalizing x with
  | nil =>
    obtain rfl := Except.ok.inj h
    exact ⟨hx, (List.append_nil _).symm⟩
  | cons r types ih =>
    rw [List.foldlM_cons] at h
    cases hz : x.add r with
    | error e =>
      rw [hz] at h
      contradiction
    | ok z =>
      rw [hz] at h
      obtain ⟨hy, htypes⟩ := ih (hadd x z r hx hz) h
      refine ⟨hy, ?_⟩
      rw [htypes, (add_ok hz).2.1, List.append_assoc, List.singleton_append]

theorem exact_ofList {types : List Relationship} {x : Index} (h : ofList types = .ok x) :
    x.Exact := (foldlM_add_preserves (fun _ _ _ => exact_add) exact_empty h).1

theorem types_ofList {types : List Relationship} {x : Index} (h : ofList types = .ok x) :
    x.types = types := (foldlM_add_preserves (fun _ _ _ => exact_add) exact_empty h).2

theorem opposite?_comm {x : Index} (h : x.Exact) (name other : String) :
    x.opposite? name = some other ↔ x.opposite? other = some name := by
  rw [h, h]
  simp only [pairs_comm _ name other]

theorem opposite?_eq_some_iff (x : Index) (name other : String) :
    x.opposite? name = some other ↔ x.contains name = true ∧ x.opposite name = other := by
  unfold contains SortedMap.contains opposite opposite?
  cases x.opposites.get? name <;> simp

/-- On the names of an index, opposites are mutual. -/
theorem opposite_opposite {x : Index} (h : x.Exact) (name : String) (hname : x.contains name = true) :
    x.contains (x.opposite name) = true ∧ x.opposite (x.opposite name) = name := by
  rw [← opposite?_eq_some_iff, opposite?_comm h, opposite?_eq_some_iff]
  exact ⟨hname, rfl⟩

end Index

end Traceability.Relationship
