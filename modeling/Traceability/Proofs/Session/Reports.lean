import Traceability.Proofs.Session.Run

/-!
Reports of duplicates and rejected declarations, counted by tag and place. Each
operation is described by what it does to the two counts: a registration adds to both
or to neither, and a withdrawal takes back the reports about what it promotes.
-/

namespace Traceability

/-- A declaration of a tag at a place. -/
def Item.isClaim (tag : String) (origin : Origin) (i : Item) : Bool :=
  i.tag == tag && decide (i.origin = some origin)

/-- The report that a declaration of a tag at a place is a duplicate. -/
def Diagnostic.isDuplicate (tag : String) (origin : Origin) (d : Diagnostic) : Bool :=
  decide (d.kind = .duplicateTag) && d.tag == tag && decide (d.location = some origin)

/-- How many rejected declarations of a tag at a place are kept aside. -/
def Registry.rejected (r : Registry) (tag : String) (origin : Origin) : Nat :=
  r.shadowed.countP (Item.isClaim tag origin)

/-- How many reports there are that a tag is declared at a place as a duplicate. -/
def Diagnostics.reported (d : Diagnostics) (tag : String) (origin : Origin) : Nat :=
  d.all.countP (Diagnostic.isDuplicate tag origin)

/-- Those of the reports that stem from registrations. -/
def Diagnostics.registered (d : Diagnostics) (tag : String) (origin : Origin) : Nat :=
  d.registration.countP (Diagnostic.isDuplicate tag origin)

private theorem countP_filter_of_imp {α : Type} {p q : α → Bool}
    (h : ∀ a, p a = true → q a = true) (l : List α) : (l.filter q).countP p = l.countP p := by
  rw [List.countP_filter]
  apply List.countP_congr
  intro a _
  rw [Bool.and_eq_true, and_iff_left_of_imp (h a)]

private theorem countP_filter_of_disjoint {α : Type} {p q : α → Bool}
    (h : ∀ a, p a = true → q a = false) (l : List α) : (l.filter q).countP p = 0 := by
  rw [List.countP_eq_zero]
  intro a ha hp
  have hq := (List.mem_filter.mp ha).2
  rw [h a hp] at hq
  contradiction

namespace Item

variable {tag : String} {origin : Origin} {i : Item}

theorem isClaim_iff : i.isClaim tag origin = true ↔ i.tag = tag ∧ i.origin = some origin := by
  simp [isClaim]

theorem isFrom_of_isClaim (document : String) (h : i.isClaim tag origin = true) :
    i.isFrom document = (origin.document == document) := by
  unfold isFrom
  rw [(isClaim_iff.mp h).2]

end Item

namespace Diagnostic

variable {tag : String} {origin : Origin} {d : Diagnostic}

theorem isDuplicate_iff : d.isDuplicate tag origin = true ↔
    d.kind = .duplicateTag ∧ d.tag = tag ∧ d.location = some origin := by
  simp [isDuplicate, and_assoc]

theorem isFrom_of_isDuplicate (document : String) (h : d.isDuplicate tag origin = true) :
    d.isFrom document = (origin.document == document) := by
  unfold isFrom
  rw [(isDuplicate_iff.mp h).2.2]

end Diagnostic

namespace Registry

variable (r : Registry) (tag : String) (origin : Origin)

theorem rejected_eq : r.rejected tag origin = (r.waiting tag).countP (Item.isClaim tag origin) := by
  unfold rejected waiting
  rw [countP_filter_of_imp]
  intro i hi
  exact beq_iff_eq.mpr (Item.isClaim_iff.mp hi).1

theorem holder?_register (item : Item) (h : r.holder? tag = some origin) :
    (r.register item).1.holder? tag = some origin := by
  cases hitem : item.origin with
  | none =>
    rw [register_of_placeholder r item hitem]
    cases hcontains : r.contains item.tag with
    | true => exact h
    | false =>
      have hne : tag ≠ item.tag := by
        intro e
        have hnone : r.get? item.tag = none :=
          Option.not_isSome_iff_eq_none.mp (Bool.eq_false_iff.mp hcontains)
        rw [holder?, e, hnone] at h
        contradiction
      simp only [Bool.false_eq_true, if_false]
      rw [holder?, get?_put, if_neg hne]
      exact h
  | some place =>
    cases hholder : r.holder? item.tag with
    | none =>
      have hne : tag ≠ item.tag := by
        intro e
        rw [e, hholder] at h
        contradiction
      rw [register_of_free r item place hitem hholder, holder?, get?_put, if_neg hne]
      exact h
    | some first =>
      rw [register_of_held r item place first hitem hholder]
      exact h

theorem holder?_purge (document : String) :
    (r.purge document).1.holder? tag =
      if tag ∈ r.heldFrom document then (r.waitingBeside document tag).head?.bind Item.origin
      else r.holder? tag := by
  rw [holder?, get?_purge]
  by_cases h : tag ∈ r.heldFrom document
  · rw [if_pos h, if_pos h]
    cases (r.waitingBeside document tag).head? <;> rfl
  · rw [if_neg h, if_neg h]
    rfl

theorem not_mem_heldFrom (document : String) (h : r.holder? tag = some origin)
    (hne : origin.document ≠ document) : tag ∉ r.heldFrom document := by
  rw [mem_heldFrom, h]
  intro hheld
  obtain ⟨o, ho, hdocument⟩ := hheld
  rw [← Option.some.inj ho] at hdocument
  exact hne hdocument

theorem countP_waitingBeside (document : String) :
    (r.waitingBeside document tag).countP (Item.isClaim tag origin) =
      if origin.document = document then 0 else r.rejected tag origin := by
  rw [waitingBeside, rejected_eq]
  by_cases h : origin.document = document
  · rw [if_pos h]
    apply countP_filter_of_disjoint
    intro i hi
    simp [Item.isFrom_of_isClaim document hi, h]
  · rw [if_neg h]
    apply countP_filter_of_imp
    intro i hi
    simp [Item.isFrom_of_isClaim document hi, h]

/-- The promoted declaration no longer waits; every other one of another document does. -/
theorem rejected_purge (document : String) :
    (r.purge document).1.rejected tag origin +
        (if tag ∈ r.heldFrom document ∧ (r.purge document).1.holder? tag = some origin
          then 1 else 0) =
      if origin.document = document then 0 else r.rejected tag origin := by
  rw [← countP_waitingBeside, rejected_eq, waiting_purge, holder?_purge]
  by_cases hheld : tag ∈ r.heldFrom document
  · simp only [hheld, true_and]
    have hwaiting : ∀ i ∈ r.waitingBeside document tag, i.tag = tag := by
      intro i hi
      have hmem := (List.mem_filter.mp hi).1
      exact beq_iff_eq.mp (List.mem_filter.mp hmem).2
    cases hbeside : r.waitingBeside document tag with
    | nil => simp
    | cons first rest =>
      have htag : first.tag = tag := hwaiting first (hbeside ▸ List.mem_cons_self)
      simp [List.countP_cons, Item.isClaim, htag]
  · simp [hheld]

end Registry

namespace Diagnostics

variable (d : Diagnostics) (tag : String) (origin : Origin)

theorem registered_purge (document : String) :
    (d.purge document).registered tag origin =
      if origin.document = document then 0 else d.registered tag origin := by
  unfold registered purge
  by_cases h : origin.document = document
  · rw [if_pos h]
    apply countP_filter_of_disjoint
    intro x hx
    simp [Diagnostic.isFrom_of_isDuplicate document hx, h]
  · rw [if_neg h]
    apply countP_filter_of_imp
    intro x hx
    simp [Diagnostic.isFrom_of_isDuplicate document hx, h]

theorem registered_dismiss (tag' : String) (origin' : Origin) :
    (d.dismiss .duplicateTag tag' origin').registered tag origin =
      if tag' = tag ∧ origin' = origin then 0 else d.registered tag origin := by
  unfold registered
  change (d.registration.filter fun x => !x.isDuplicate tag' origin').countP _ = _
  by_cases h : tag' = tag ∧ origin' = origin
  · rw [if_pos h]
    apply countP_filter_of_disjoint
    intro x hx
    rw [h.1, h.2, hx]
    rfl
  · rw [if_neg h]
    apply countP_filter_of_imp
    intro x hx
    rw [Bool.not_eq_true', Bool.eq_false_iff]
    intro hx'
    obtain ⟨-, htag, hlocation⟩ := Diagnostic.isDuplicate_iff.mp hx
    obtain ⟨-, htag', hlocation'⟩ := Diagnostic.isDuplicate_iff.mp hx'
    exact h ⟨htag'.symm.trans htag, Option.some.inj (hlocation'.symm.trans hlocation)⟩

end Diagnostics

namespace Session

theorem registered_dismissPromoted (registry : Registry) (d : Diagnostics) (t tag : String)
    (origin : Origin) :
    (dismissPromoted registry d t).registered tag origin =
      if t = tag ∧ registry.holder? tag = some origin then 0 else d.registered tag origin := by
  unfold dismissPromoted
  cases hholder : registry.holder? t with
  | none =>
    rw [if_neg]
    intro h
    rw [h.1, h.2] at hholder
    contradiction
  | some place =>
    simp only [Diagnostics.registered_dismiss]
    by_cases ht : t = tag
    · subst ht
      simp [hholder]
    · simp [ht]

theorem registered_foldl_dismissPromoted (registry : Registry) (tags : List String)
    (d : Diagnostics) (tag : String) (origin : Origin) :
    (tags.foldl (dismissPromoted registry) d).registered tag origin =
      if tag ∈ tags ∧ registry.holder? tag = some origin then 0
      else d.registered tag origin := by
  induction tags generalizing d with
  | nil => simp
  | cons t tags ih =>
    rw [List.foldl_cons, ih, registered_dismissPromoted]
    by_cases hholder : registry.holder? tag = some origin
    · by_cases ht : tag = t
      · subst ht
        simp [hholder]
      · simp [hholder, ht, Ne.symm ht]
    · simp [hholder]

theorem registered_forget (s : Session) (document tag : String) (origin : Origin) :
    (s.forget document).1.diagnostics.registered tag origin =
      if tag ∈ s.registry.heldFrom document ∧
          (s.registry.purge document).1.holder? tag = some origin then 0
      else if origin.document = document then 0
      else s.diagnostics.registered tag origin := by
  have h := registered_foldl_dismissPromoted (s.registry.purge document).1
    (s.registry.heldFrom document) (s.diagnostics.purge document) tag origin
  rw [Diagnostics.registered_purge] at h
  exact h

theorem rejected_register (r : Registry) (item : Item) (tag : String) (origin : Origin) :
    (r.register item).1.rejected tag origin = r.rejected tag origin +
      (duplicateReports (r.register item).2).countP (Diagnostic.isDuplicate tag origin) := by
  cases hitem : item.origin with
  | none =>
    rw [Registry.register_of_placeholder r item hitem]
    split <;> rfl
  | some place =>
    cases hholder : r.holder? item.tag with
    | none =>
      rw [Registry.register_of_free r item place hitem hholder]
      rfl
    | some first =>
      rw [Registry.register_of_held r item place first hitem hholder]
      have hsame : (Diagnostic.duplicateTag item.tag place).isDuplicate tag origin =
          item.isClaim tag origin := by
        simp [Diagnostic.isDuplicate, Diagnostic.duplicateTag, Item.isClaim, hitem]
      simp only [Registry.rejected, duplicateReports, List.countP_append, List.countP_singleton,
        hsame]

/-- A registration adds a rejected declaration and its report, or neither. -/
theorem exists_register (s : Session) (t : String) (attributes : Attributes) (place : Origin)
    (tag : String) (origin : Origin) :
    ∃ n, (s.register t attributes place).1.diagnostics.registered tag origin =
        s.diagnostics.registered tag origin + n ∧
      (s.register t attributes place).1.registry.rejected tag origin =
        s.registry.rejected tag origin + n := by
  cases hblank : Text.isBlankText t with
  | true =>
    rw [register_blank s t attributes place hblank]
    exact ⟨0, rfl, rfl⟩
  | false =>
    rw [register_not_blank s t attributes place hblank]
    refine ⟨_, ?_, rejected_register _ _ tag origin⟩
    have hnames : (nameReports (Text.trimmed t) attributes place).countP
        (Diagnostic.isDuplicate tag origin) = 0 := by
      rw [List.countP_eq_zero]
      intro d hd
      obtain ⟨name, -, rfl⟩ := List.mem_map.mp hd
      simp [Diagnostic.isDuplicate, Diagnostic.invalidAttributeName]
    simp only [Diagnostics.registered, Diagnostics.record, List.countP_append, hnames,
      Nat.zero_add]

theorem registered_purge (s : Session) (document tag : String) (origin : Origin) :
    (s.purge document).1.diagnostics.registered tag origin =
      (s.forget document).1.diagnostics.registered tag origin := rfl

theorem rejected_resolve (s : Session) (tag : String) (origin : Origin) :
    s.resolve.1.registry.rejected tag origin = s.registry.rejected tag origin := by
  unfold Registry.rejected
  rw [registry_resolve, Resolution.shadowed_ofRegistry]

theorem rejected_purge (s : Session) (document tag : String) (origin : Origin) :
    (s.purge document).1.registry.rejected tag origin =
      (s.registry.purge document).1.rejected tag origin :=
  rejected_resolve (s.forget document).1 tag origin

theorem holder?_purge (s : Session) (document tag : String) :
    (s.purge document).1.registry.holder? tag = (s.registry.purge document).1.holder? tag :=
  Resolution.holder?_ofRegistry _ _ tag

end Session

end Traceability
