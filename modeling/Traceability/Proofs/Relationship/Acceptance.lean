import Traceability.Proofs.Relationship.Directions

/-!
Which lists of relationships are accepted: those of well-formed relationships that give no
name two opposites. A pair can be declared again, also from its other end. The names of an
accepted list are those that it declares, and each of them has an opposite and a direction.
-/

namespace Traceability.Relationship

/-- No name is given two opposites. -/
def Consistent (types : List Relationship) : Prop :=
  ∀ r ∈ types, ∀ r' ∈ types, ∀ name other other', r.Pairs name other → r'.Pairs name other' →
    other = other'

theorem Consistent.of_append_left {types further : List Relationship}
    (h : Consistent (types ++ further)) : Consistent types := by
  intro r hr r' hr'
  exact h r (List.mem_append_left _ hr) r' (List.mem_append_left _ hr')

namespace Index

theorem Exact.consistent {x : Index} (hx : x.Exact) : Consistent x.types := by
  intro r hr r' hr' name other other' hother hother'
  have hfirst := (hx name other).mpr ⟨r, hr, hother⟩
  have hsecond := (hx name other').mpr ⟨r', hr', hother'⟩
  rw [hfirst] at hsecond
  exact Option.some.inj hsecond

section Accepted

/-- An opposite is added unless the name has another one. -/
theorem exists_addOpposite {opposites : SortedMap String String} {name other : String}
    (h : ∀ known, opposites.get? name = some known → known = other) :
    ∃ added, addOpposite opposites name other = .ok added := by
  unfold addOpposite
  cases hknown : opposites.get? name with
  | none => exact ⟨_, rfl⟩
  | some known => exact ⟨opposites, if_pos (h known hknown)⟩

theorem exists_add {x : Index} {r : Relationship} (hx : x.Exact) (hr : r.WellFormed)
    (h : Consistent (x.types ++ [r])) : ∃ y, x.add r = .ok y := by
  have hnew : r ∈ x.types ++ [r] := by simp
  have hold (name other : String) (hpairs : r.Pairs name other) (known : String)
      (hknown : x.opposites.get? name = some known) : known = other := by
    obtain ⟨r', hr', hpairs'⟩ := (hx name known).mp hknown
    exact h r' (List.mem_append_left _ hr') r hnew name known other hpairs' hpairs
  obtain ⟨opposites, hforward⟩ := exists_addOpposite (hold _ _ r.pairs_forward)
  -- By now the first name has its opposite, which is the second name's where both are one.
  have hboth (known : String) (hknown : opposites.get? r.backward = some known) :
      known = r.forward := by
    rcases (get?_of_addOpposite hforward _ _).mp hknown with ⟨hbackward, rfl⟩ | hknown
    · exact hbackward
    · exact hold _ _ r.pairs_backward known hknown
  obtain ⟨both, hbackward⟩ := exists_addOpposite hboth
  refine ⟨⟨x.types ++ [r], both, addDirections x.directions r⟩, ?_⟩
  unfold add
  rw [(check_eq_ok_iff r).mpr hr]
  simp only [hforward, hbackward]

theorem exists_foldlM_add {x : Index} {types : List Relationship} (hx : x.Exact)
    (htypes : ∀ r ∈ types, r.WellFormed) (h : Consistent (x.types ++ types)) :
    ∃ y, types.foldlM add x = .ok y := by
  induction types generalizing x with
  | nil => exact ⟨x, rfl⟩
  | cons r types ih =>
    rw [List.forall_mem_cons] at htypes
    rw [← List.singleton_append, ← List.append_assoc] at h
    obtain ⟨y, hy⟩ := exists_add hx htypes.1 h.of_append_left
    rw [List.foldlM_cons, hy]
    rw [← (add_ok hy).2.1] at h
    exact ih (exact_add hx hy) htypes.2 h

theorem wellFormed_ofList {types : List Relationship} {x : Index} (h : ofList types = .ok x) :
    ∀ r ∈ types, r.WellFormed := by
  have hadd (x y : Index) (r : Relationship) (hx : ∀ r ∈ x.types, r.WellFormed)
      (h : x.add r = .ok y) : ∀ r ∈ y.types, r.WellFormed := by
    obtain ⟨hcheck, htypes, -⟩ := add_ok h
    rw [htypes, List.forall_mem_append, List.forall_mem_singleton]
    exact ⟨hx, (check_eq_ok_iff r).mp hcheck⟩
  have hempty : ∀ r ∈ empty.types, r.WellFormed := by simp [empty]
  rw [← types_ofList h]
  exact (foldlM_add_preserves hadd hempty h).1

theorem exists_ofList_iff (types : List Relationship) :
    (∃ x, ofList types = .ok x) ↔ (∀ r ∈ types, r.WellFormed) ∧ Consistent types := by
  constructor
  · rintro ⟨x, h⟩
    have hconsistent := (exact_ofList h).consistent
    rw [types_ofList h] at hconsistent
    exact ⟨wellFormed_ofList h, hconsistent⟩
  · rintro ⟨htypes, hconsistent⟩
    exact exists_foldlM_add exact_empty htypes hconsistent

end Accepted

section Names

variable {x y : Index}

theorem contains_iff (x : Index) (name : String) :
    x.contains name = true ↔ ∃ other, x.opposite? name = some other :=
  Option.isSome_iff_exists

theorem mem_names (x : Index) (name : String) : name ∈ x.names ↔ x.contains name = true :=
  SortedMap.mem_keys

theorem Exact.contains_iff_declared (hx : x.Exact) (name : String) :
    x.contains name = true ↔ ∃ r ∈ x.types, name = r.forward ∨ name = r.backward := by
  simp only [contains_iff, hx name, ← exists_pairs_iff]
  constructor
  · rintro ⟨other, r, hr, hpairs⟩
    exact ⟨r, hr, other, hpairs⟩
  · rintro ⟨r, hr, other, hpairs⟩
    exact ⟨other, r, hr, hpairs⟩

/-- Only the names of the index have directions. -/
def Closed (x : Index) : Prop := ∀ name, x.contains name = false → x.direction? name = none

theorem closed_empty : empty.Closed := fun _ _ => rfl

theorem closed_add {r : Relationship} (hx : x.Exact) (hclosed : x.Closed) (h : x.add r = .ok y) :
    y.Closed := by
  intro name hname
  have hdeclared := (exact_add hx h).contains_iff_declared name
  have hold : (∃ r' ∈ x.types, name = r'.forward ∨ name = r'.backward) →
      ∃ r' ∈ y.types, name = r'.forward ∨ name = r'.backward := by
    rintro ⟨r', hr', hends⟩
    exact ⟨r', by simp [(add_ok h).2.1, hr'], hends⟩
  have hnew : r ∈ y.types := by simp [(add_ok h).2.1]
  rw [← hx.contains_iff_declared, ← hdeclared, hname] at hold
  rw [hname] at hdeclared
  have hforward : name ≠ r.forward := fun heq =>
    Bool.false_ne_true (hdeclared.mpr ⟨r, hnew, Or.inl heq⟩)
  have hbackward : name ≠ r.backward := fun heq =>
    Bool.false_ne_true (hdeclared.mpr ⟨r, hnew, Or.inr heq⟩)
  rw [direction?, directions_add h, get?_addDirections_of_ne hforward hbackward]
  exact hclosed name (by simpa using hold)

theorem closed_ofList {types : List Relationship} (h : ofList types = .ok x) : x.Closed := by
  have hadd (x y : Index) (r : Relationship) (hx : x.Exact ∧ x.Closed) (h : x.add r = .ok y) :
      y.Exact ∧ y.Closed := ⟨exact_add hx.1 h, closed_add hx.1 hx.2 h⟩
  exact (foldlM_add_preserves hadd ⟨exact_empty, closed_empty⟩ h).1.2

end Names

/-- The accepted lists are those of well-formed relationships without a name that is given
two opposites. Opposites are mutual, and of two opposite names the one is read forward and
the other backward, unless they are one name, which is read symmetrically. -/
theorem indexed_iff_consistent (types : List Relationship) :
    ((∃ x, ofList types = .ok x) ↔ (∀ r ∈ types, r.WellFormed) ∧ Consistent types) ∧
    ∀ x, ofList types = .ok x →
      (∀ name, name ∈ x.names ↔ ∃ r ∈ types, name = r.forward ∨ name = r.backward) ∧
      (∀ name, x.contains name = true ↔ name ∈ x.names) ∧
      (∀ name, name ∉ x.names → x.opposite? name = none ∧ x.direction? name = none) ∧
      ∀ name ∈ x.names, ∃ other ∈ x.names,
        x.opposite? name = some other ∧ x.opposite? other = some name ∧
        (x.direction? name = some .symmetric ↔ x.opposite? name = some name) ∧
        (name ≠ other →
          x.direction? name = some .forward ∧ x.direction? other = some .backward ∨
          x.direction? name = some .backward ∧ x.direction? other = some .forward) := by
  refine ⟨exists_ofList_iff types, fun x h => ?_⟩
  have hexact := exact_ofList h
  have hdeclared := hexact.contains_iff_declared
  rw [types_ofList h] at hdeclared
  refine ⟨fun name => (mem_names x name).trans (hdeclared name),
    fun name => (mem_names x name).symm, fun name hname => ?_, fun name hname => ?_⟩
  · rw [mem_names, Bool.not_eq_true] at hname
    have hnone : x.opposite? name = none := by
      simpa [contains, SortedMap.contains, opposite?] using hname
    exact ⟨hnone, closed_ofList h name hname⟩
  · rw [mem_names] at hname
    obtain ⟨other, hother⟩ := (contains_iff x name).mp hname
    have hback := (opposite?_comm hexact name other).mp hother
    have hmem : other ∈ x.names := by
      rw [mem_names, contains_iff]
      exact ⟨name, hback⟩
    obtain ⟨d, hd, hflip, hsymmetric⟩ := directed_ofList h name other hother
    refine ⟨other, hmem, hother, hback, ?_, fun hne => ?_⟩
    · rw [direction?, hd, hother, Option.some.injEq, Option.some.injEq, hsymmetric, eq_comm]
    · cases d with
      | forward => exact Or.inl ⟨hd, hflip⟩
      | backward => exact Or.inr ⟨hd, hflip⟩
      | symmetric => exact absurd (hsymmetric.mp rfl) hne

/-- A pair that is declared again from its other end is read in the directions of the later
declaration. -/
example : (ofList [between "parents" "children", symmetric "sibling",
      between "children" "parents"]).toOption.map (fun x =>
        (x.opposite? "parents", x.direction? "parents", x.direction? "sibling")) =
    some (some "children", some .backward, some .symmetric) := by decide

end Index

end Traceability.Relationship
