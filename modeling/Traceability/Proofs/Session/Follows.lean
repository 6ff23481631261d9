import Traceability.Proofs.Registry.Refinement
import Traceability.Proofs.Session.Reports

/-!
A session follows a log of declarations: its register keeps the log, its reports about
attribute names are those that the log causes, and no report of a duplicate is without
a rejected declaration. Where no tag is declared twice, the log determines the resolved
session up to the order of reports.
-/

namespace Traceability

/-- A filter that depends on the outer element only selects outer elements. -/
theorem filter_flatMap_of_forall {α β : Type} {p : β → Bool} {q : α → Bool} {g : α → List β}
    (l : List α) (h : ∀ a, ∀ b ∈ g a, p b = q a) :
    (l.flatMap g).filter p = (l.filter q).flatMap g := by
  induction l with
  | nil => rfl
  | cons a l ih =>
    rw [List.flatMap_cons, List.filter_append, ih, List.filter_cons]
    cases hq : q a with
    | true =>
      have hall : (g a).filter p = g a := by
        rw [List.filter_eq_self]
        intro b hb
        rw [h a b hb, hq]
      simp [hall]
    | false =>
      have hnone : (g a).filter p = [] := by
        rw [List.filter_eq_nil_iff]
        intro b hb
        simp [h a b hb, hq]
      simp [hnone]

/-- The reports about the attribute names of a declaration. -/
def Item.nameReports (i : Item) : List Diagnostic :=
  match i.origin with
  | some origin => Session.nameReports i.tag i.attributes origin
  | none => []

theorem Item.isFrom_of_mem_nameReports (i : Item) (document : String) (d : Diagnostic)
    (h : d ∈ i.nameReports) : d.isFrom document = i.isFrom document := by
  unfold Item.nameReports at h
  cases horigin : i.origin with
  | none =>
    rw [horigin] at h
    contradiction
  | some origin =>
    rw [horigin] at h
    obtain ⟨name, -, rfl⟩ := List.mem_map.mp h
    simp [Diagnostic.isFrom, Diagnostic.invalidAttributeName, Item.isFrom, horigin]

namespace Diagnostics

/-- The reports of registrations that are not about duplicates. -/
def besideDuplicates (d : Diagnostics) : List Diagnostic :=
  d.registration.filter fun x => decide (x.kind ≠ .duplicateTag)

theorem besideDuplicates_purge (d : Diagnostics) (document : String) :
    (d.purge document).besideDuplicates =
      d.besideDuplicates.filter fun x => !x.isFrom document := by
  unfold besideDuplicates purge
  rw [List.filter_filter, List.filter_filter]
  simp only [Bool.and_comm]

theorem besideDuplicates_dismiss (d : Diagnostics) (tag : String) (origin : Origin) :
    (d.dismiss .duplicateTag tag origin).besideDuplicates = d.besideDuplicates := by
  unfold besideDuplicates dismiss
  rw [List.filter_filter]
  apply List.filter_congr
  intro x _
  by_cases h : x.kind = .duplicateTag <;> simp [h]

theorem besideDuplicates_dismissPromoted (registry : Registry) (tags : List String)
    (d : Diagnostics) :
    (tags.foldl (Session.dismissPromoted registry) d).besideDuplicates = d.besideDuplicates ∧
      ∀ x ∈ (tags.foldl (Session.dismissPromoted registry) d).registration,
        x ∈ d.registration := by
  induction tags generalizing d with
  | nil => exact ⟨rfl, fun _ hx => hx⟩
  | cons tag tags ih =>
    rw [List.foldl_cons]
    obtain ⟨hbeside, hmem⟩ := ih (Session.dismissPromoted registry d tag)
    unfold Session.dismissPromoted at hbeside hmem ⊢
    cases hholder : registry.holder? tag with
    | none =>
      simp only [hholder] at hbeside hmem ⊢
      exact ⟨hbeside, hmem⟩
    | some origin =>
      simp only [hholder] at hbeside hmem ⊢
      refine ⟨hbeside.trans (besideDuplicates_dismiss d tag origin), ?_⟩
      intro x hx
      exact (List.mem_filter.mp (hmem x hx)).1

end Diagnostics

namespace Session

/-- A registration adds the reports about names, and else only a duplicate. -/
theorem besideDuplicates_register (s : Session) (tag : String) (attributes : Attributes)
    (origin : Origin) :
    (s.register tag attributes origin).1.diagnostics.besideDuplicates =
      s.diagnostics.besideDuplicates ++
        (declaredItems tag attributes origin).flatMap Item.nameReports := by
  unfold declaredItems
  cases hblank : Text.isBlankText tag with
  | true => simp [register_blank s tag attributes origin hblank]
  | false =>
    have hnames : (nameReports (Text.trimmed tag) attributes origin).filter
        (fun x => decide (x.kind ≠ .duplicateTag)) =
        nameReports (Text.trimmed tag) attributes origin := by
      rw [List.filter_eq_self]
      intro d hd
      obtain ⟨name, -, rfl⟩ := List.mem_map.mp hd
      rfl
    have hduplicates (answer : Option DuplicateTag) : (duplicateReports answer).filter
        (fun x => decide (x.kind ≠ .duplicateTag)) = [] := by
      cases answer <;> rfl
    rw [register_not_blank s tag attributes origin hblank]
    simp only [Diagnostics.besideDuplicates, Diagnostics.record, List.filter_append, hnames,
      hduplicates]
    rfl

theorem mem_registration_register (s : Session) (tag : String) (attributes : Attributes)
    (origin : Origin) (d : Diagnostic)
    (h : d ∈ (s.register tag attributes origin).1.diagnostics.registration) :
    d ∈ s.diagnostics.registration ∨ d.location = some origin := by
  cases hblank : Text.isBlankText tag with
  | true =>
    rw [register_blank s tag attributes origin hblank] at h
    exact Or.inl h
  | false =>
    rw [register_not_blank s tag attributes origin hblank] at h
    rcases List.mem_append.mp h with hold | hnew
    · exact Or.inl hold
    refine Or.inr ?_
    rcases List.mem_append.mp hnew with hname | hduplicate
    · obtain ⟨name, -, rfl⟩ := List.mem_map.mp hname
      rfl
    · cases hanswer : (s.registry.register
          (Item.declared (Text.trimmed tag) attributes origin)).2 with
      | none =>
        rw [hanswer] at hduplicate
        contradiction
      | some answer =>
        rw [hanswer] at hduplicate
        rw [List.mem_singleton.mp hduplicate,
          ← Registry.duplicate_register s.registry _ origin rfl answer hanswer]
        rfl

theorem besideDuplicates_forget (s : Session) (document : String) :
    (s.forget document).1.diagnostics.besideDuplicates =
      s.diagnostics.besideDuplicates.filter fun x => !x.isFrom document :=
  (Diagnostics.besideDuplicates_dismissPromoted _ _ _).1.trans
    (Diagnostics.besideDuplicates_purge s.diagnostics document)

theorem mem_registration_forget (s : Session) (document : String) (d : Diagnostic)
    (h : d ∈ (s.forget document).1.diagnostics.registration) :
    d ∈ s.diagnostics.registration := by
  have hpurged : d ∈ (s.diagnostics.purge document).registration :=
    (Diagnostics.besideDuplicates_dismissPromoted _ _ _).2 d h
  exact (List.mem_filter.mp hpurged).1

/-- The session agrees with the log. -/
structure Follows (s : Session) (log : Registry.Log) : Prop where
  keeps : s.registry.Keeps log
  names : s.diagnostics.besideDuplicates.Perm (log.flatMap Item.nameReports)
  located : ∀ d ∈ s.diagnostics.registration, d.kind = .duplicateTag →
    ∃ origin, d.location = some origin
  rejected : ∀ tag origin, s.diagnostics.registered tag origin ≤ s.registry.rejected tag origin

theorem follows_empty (index : Relationship.Index) (capacity : Nat) :
    (empty index capacity).Follows [] where
  keeps := Registry.keeps_empty
  names := List.Perm.nil
  located := fun _ h => by cases h
  rejected := fun _ _ => Nat.le_refl 0

namespace Follows

variable {s : Session} {log : Registry.Log}

theorem register (h : s.Follows log) (tag : String) (attributes : Attributes)
    (origin : Origin) :
    (s.register tag attributes origin).1.Follows
      (log ++ declaredItems tag attributes origin) := by
  refine ⟨keeps_register h.keeps tag attributes origin, ?_, ?_, ?_⟩
  · rw [besideDuplicates_register, List.flatMap_append]
    exact h.names.append_right _
  · intro d hd hkind
    rcases mem_registration_register s tag attributes origin d hd with hold | hlocation
    · exact h.located d hold hkind
    · exact ⟨origin, hlocation⟩
  · intro t place
    obtain ⟨n, hregistered, hrejected⟩ := exists_register s tag attributes origin t place
    have hle := h.rejected t place
    omega

theorem forget (h : s.Follows log) (document : String) :
    (s.forget document).1.Follows (log.withdraw document) := by
  refine ⟨h.keeps.purge document, ?_, ?_, ?_⟩
  · have hreports := filter_flatMap_of_forall (p := fun x : Diagnostic => !x.isFrom document)
      (q := fun i : Item => !i.isFrom document) log fun i d hd => by
        rw [i.isFrom_of_mem_nameReports document d hd]
    rw [besideDuplicates_forget, Registry.Log.withdraw, ← hreports]
    exact h.names.filter _
  · intro d hd hkind
    exact h.located d (mem_registration_forget s document d hd) hkind
  · intro tag origin
    have hrejected := Registry.rejected_purge s.registry tag origin document
    have hle := h.rejected tag origin
    rw [registered_forget, registry_forget]
    split
    · exact Nat.zero_le _
    · rename_i hpromoted
      rw [if_neg hpromoted] at hrejected
      split
      · exact Nat.zero_le _
      · rename_i hdocument
        rw [if_neg hdocument] at hrejected
        omega

theorem resolve (h : s.Follows log) : s.resolve.1.Follows log where
  keeps := keeps_resolve h.keeps
  names := h.names
  located := h.located
  rejected := fun tag origin => by
    rw [rejected_resolve]
    exact h.rejected tag origin

theorem declares_iff (h : s.Follows log) (tag : String) :
    s.registry.declares tag = true ↔ ∃ item ∈ log, item.tag = tag := by
  rw [← h.keeps.exists_declared_iff]
  unfold Registry.declares
  cases s.registry.get? tag <;> simp

/-- Without repeated tags nothing waits. -/
theorem shadowed_eq_nil (h : s.Follows log) (hnodup : (log.map Item.tag).Nodup) :
    s.registry.shadowed = [] := by
  rw [List.eq_nil_iff_forall_not_mem]
  intro item hitem
  have hwaiting : item ∈ s.registry.waiting item.tag :=
    List.mem_filter.mpr ⟨hitem, beq_self_eq_true _⟩
  rw [h.keeps.waiting_eq, Registry.Log.tail_claims_of_nodup hnodup] at hwaiting
  contradiction

/-- Without rejected declarations no duplicate is reported. -/
theorem besideDuplicates_eq (h : s.Follows log) (hnone : s.registry.shadowed = []) :
    s.diagnostics.besideDuplicates = s.diagnostics.registration := by
  unfold Diagnostics.besideDuplicates
  rw [List.filter_eq_self]
  intro d hd
  rw [decide_eq_true_eq]
  intro hkind
  obtain ⟨origin, horigin⟩ := h.located d hd hkind
  have hle := h.rejected d.tag origin
  have hrejected : s.registry.rejected d.tag origin = 0 := by
    rw [Registry.rejected, hnone]
    rfl
  have hregistered : 0 < s.diagnostics.registered d.tag origin := by
    rw [Diagnostics.registered, List.countP_pos_iff]
    exact ⟨d, hd, Diagnostic.isDuplicate_iff.mpr ⟨hkind, rfl, horigin⟩⟩
  omega

/-- Resolved sessions that follow the same declarations in any order have the same
register and the same reports, provided that no tag is declared twice. -/
theorem eq_of_perm {s' : Session} {log' : Registry.Log} (h : s.Follows log)
    (h' : s'.Follows log') (hperm : log.Perm log') (hnodup : (log.map Item.tag).Nodup)
    (hindex : s.index = s'.index) (hresolved : s.resolve.1 = s) (hresolved' : s'.resolve.1 = s') :
    s.registry = s'.registry ∧ s.diagnostics.all.Perm s'.diagnostics.all := by
  have hnone := h.shadowed_eq_nil hnodup
  have hnone' := h'.shadowed_eq_nil ((hperm.map Item.tag).nodup_iff.mp hnodup)
  have hunresolved : s.registry.unresolved = s'.registry.unresolved :=
    h.keeps.unresolved_congr h'.keeps (Registry.Log.claims_congr hperm hnodup)
      (hnone.trans hnone'.symm)
  have houtcome : Resolution.ofRegistry s.index s.registry =
      Resolution.ofRegistry s'.index s'.registry := by
    rw [hindex]
    exact Resolution.ofRegistry_congr _ hunresolved
  have hregistry : s.registry = s'.registry := by
    rw [← hresolved, ← hresolved', registry_resolve, registry_resolve, houtcome]
  have hresolution : s.diagnostics.resolution = s'.diagnostics.resolution := by
    rw [← hresolved, ← hresolved']
    exact congrArg Resolution.Outcome.reports houtcome
  have hregistration : s.diagnostics.registration.Perm s'.diagnostics.registration := by
    rw [← h.besideDuplicates_eq hnone, ← h'.besideDuplicates_eq hnone']
    exact h.names.trans ((hperm.flatMap_right _).trans h'.names.symm)
  refine ⟨hregistry, ?_⟩
  unfold Diagnostics.all
  rw [hresolution]
  exact hregistration.append_right _

end Follows

end Session

end Traceability
