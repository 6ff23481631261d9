import Traceability.Proofs.Relationship.Opposites

/-!
In an accepted list of relationships, a name is read in one direction and its opposite in
the other, also where a pair is declared twice, once for each direction. A name that is its
own opposite is read symmetrically, and no other one is.
-/

namespace Traceability

/-- The direction of the other end. -/
def Direction.flip : Direction → Direction
  | .forward => .backward
  | .backward => .forward
  | .symmetric => .symmetric

namespace Relationship

/-- Two names that are not blank, and a direction exactly where the names differ. -/
structure WellFormed (r : Relationship) : Prop where
  forward_unblank : Text.isBlankText r.forward = false
  backward_unblank : Text.isBlankText r.backward = false
  directional_iff : r.directional = true ↔ r.forward ≠ r.backward

theorem check_eq_ok_iff (r : Relationship) : r.check = .ok () ↔ r.WellFormed := by
  have hparts : r.WellFormed ↔ Text.isBlankText r.forward = false ∧
      Text.isBlankText r.backward = false ∧ (r.directional = true ↔ r.forward ≠ r.backward) :=
    ⟨fun h => ⟨h.1, h.2, h.3⟩, fun h => ⟨h.1, h.2.1, h.2.2⟩⟩
  rw [hparts]
  unfold check
  by_cases hsame : r.forward = r.backward
  · cases r.directional <;> cases hblank : Text.isBlankText r.backward <;> simp [hsame, hblank]
  · cases r.directional <;> cases Text.isBlankText r.forward <;>
      cases Text.isBlankText r.backward <;> simp [hsame]

theorem pairs_forward (r : Relationship) : r.Pairs r.forward r.backward := Or.inl ⟨rfl, rfl⟩

theorem pairs_backward (r : Relationship) : r.Pairs r.backward r.forward := Or.inr ⟨rfl, rfl⟩

namespace Index

theorem directions_add {x y : Index} {r : Relationship} (h : x.add r = .ok y) :
    y.directions = addDirections x.directions r := by
  unfold add at h
  split at h
  · contradiction
  · split at h
    · contradiction
    · split at h
      · contradiction
      · cases h
        rfl

theorem get?_addDirections_of_ne {directions : SortedMap String Direction} {r : Relationship}
    {name : String} (hforward : name ≠ r.forward) (hbackward : name ≠ r.backward) :
    (addDirections directions r).get? name = directions.get? name := by
  unfold addDirections
  split
  · rw [SortedMap.get?_insert, if_neg hbackward, SortedMap.get?_insert, if_neg hforward]
  · rw [SortedMap.get?_insert, if_neg hforward]

/-- A pair of opposites has opposite directions, which are symmetric where the names agree. -/
def Directs (directions : SortedMap String Direction) (name other : String) : Prop :=
  ∃ d, directions.get? name = some d ∧ directions.get? other = some d.flip ∧
    (d = .symmetric ↔ name = other)

theorem directs_addDirections {directions : SortedMap String Direction} {r : Relationship}
    (hcheck : r.check = .ok ()) {name other : String} (h : r.Pairs name other) :
    Directs (addDirections directions r) name other := by
  have hiff := ((check_eq_ok_iff r).mp hcheck).directional_iff
  cases hdirectional : r.directional with
  | true =>
    have hne : r.forward ≠ r.backward := hiff.mp hdirectional
    have hforward : (addDirections directions r).get? r.forward = some .forward := by
      rw [addDirections, if_pos hdirectional, SortedMap.get?_insert, if_neg hne,
        SortedMap.get?_insert, if_pos rfl]
    have hbackward : (addDirections directions r).get? r.backward = some .backward := by
      rw [addDirections, if_pos hdirectional, SortedMap.get?_insert, if_pos rfl]
    rcases h with ⟨rfl, rfl⟩ | ⟨rfl, rfl⟩
    · exact ⟨.forward, hforward, hbackward, by simp [hne]⟩
    · exact ⟨.backward, hbackward, hforward, by simp [hne.symm]⟩
  | false =>
    have heq : r.forward = r.backward := by
      by_contra hne
      rw [hiff.mpr hne] at hdirectional
      contradiction
    have hsymmetric : (addDirections directions r).get? r.forward = some .symmetric := by
      rw [addDirections, hdirectional, if_neg Bool.false_ne_true, SortedMap.get?_insert,
        if_pos rfl]
    rcases h with ⟨rfl, rfl⟩ | ⟨rfl, rfl⟩
    · exact ⟨.symmetric, hsymmetric, heq ▸ hsymmetric, by simp [heq]⟩
    · exact ⟨.symmetric, heq ▸ hsymmetric, hsymmetric, by simp [heq]⟩

/-- Opposites are read in opposite directions. -/
def Directed (x : Index) : Prop :=
  ∀ name other, x.opposite? name = some other → Directs x.directions name other

theorem directed_empty : empty.Directed := by
  intro name other h
  simp [opposite?, empty] at h

/-- A new relationship has either both names of a pair of opposites or none of them. -/
theorem directed_add {x y : Index} {r : Relationship} (hx : x.Exact) (hdirected : x.Directed)
    (h : x.add r = .ok y) : y.Directed := by
  have hy := exact_add hx h
  obtain ⟨hcheck, htypes, -⟩ := add_ok h
  have hr : r ∈ y.types := by simp [htypes]
  have hforward := (hy _ _).mpr ⟨r, hr, r.pairs_forward⟩
  have hbackward := (hy _ _).mpr ⟨r, hr, r.pairs_backward⟩
  intro name other hopposite
  rw [directions_add h]
  by_cases hpairs : r.Pairs name other
  · exact directs_addDirections hcheck hpairs
  · have hback := (opposite?_comm hy name other).mp hopposite
    have hapart (n m : String) (hn : y.opposite? n = some m) (hnot : ¬ r.Pairs n m) :
        n ≠ r.forward ∧ n ≠ r.backward := by
      constructor
      · rintro rfl
        rw [hforward, Option.some.injEq] at hn
        exact hnot (hn ▸ r.pairs_forward)
      · rintro rfl
        rw [hbackward, Option.some.injEq] at hn
        exact hnot (hn ▸ r.pairs_backward)
    have hname := hapart name other hopposite hpairs
    have hother := hapart other name hback (mt (pairs_comm r other name).mp hpairs)
    have hold : x.opposite? name = some other := by
      obtain ⟨r', hr', hpairs'⟩ := (hy name other).mp hopposite
      rw [htypes, List.mem_append, List.mem_singleton] at hr'
      rcases hr' with hr' | rfl
      · exact (hx name other).mpr ⟨r', hr', hpairs'⟩
      · contradiction
    unfold Directs
    rw [get?_addDirections_of_ne hname.1 hname.2, get?_addDirections_of_ne hother.1 hother.2]
    exact hdirected name other hold

theorem directed_ofList {types : List Relationship} {x : Index} (h : ofList types = .ok x) :
    x.Directed := by
  have hadd (x y : Index) (r : Relationship) (hx : x.Exact ∧ x.Directed) (h : x.add r = .ok y) :
      y.Exact ∧ y.Directed := ⟨exact_add hx.1 h, directed_add hx.1 hx.2 h⟩
  exact (foldlM_add_preserves hadd ⟨exact_empty, directed_empty⟩ h).1.2

variable {x : Index}

/-- The opposite of a configured name has the other direction. -/
theorem Directed.direction?_opposite (h : x.Directed) {name : String}
    (hname : x.contains name = true) :
    ∃ d, x.direction? name = some d ∧ x.direction? (x.opposite name) = some d.flip ∧
      (d = .symmetric ↔ name = x.opposite name) :=
  h name _ ((opposite?_eq_some_iff ..).mpr ⟨hname, rfl⟩)

end Index

end Relationship

end Traceability
