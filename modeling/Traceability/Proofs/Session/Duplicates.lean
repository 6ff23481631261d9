import Traceability.Proofs.Session.Reports

/-!
Reports of duplicates against rejected declarations over a whole history. For a tag and
a place they agree until a purge promotes a declaration while another one of the same
tag and place goes on waiting: then the reports of all of them are taken back.
-/

namespace Traceability

namespace Session

/-- A purge promotes a declaration of a tag, and leaves another one of the same place
waiting. -/
def LeavesTwin (s : Session) (document tag : String) (origin : Origin) : Prop :=
  tag ∈ s.registry.heldFrom document ∧
  (s.purge document).1.registry.holder? tag = some origin ∧
  0 < (s.purge document).1.registry.rejected tag origin

/-- A purge in the history left twins, and their document has not been withdrawn since. -/
def Overlooked (s : Session) (events : List Event) (tag : String) (origin : Origin) : Prop :=
  ∃ before document later, events = before ++ .purge document :: later ∧
    (s.run before).LeavesTwin document tag origin ∧ .purge origin.document ∉ later

theorem overlooked_append (s : Session) (events : List Event) (e : Event) (tag : String)
    (origin : Origin) (h : s.Overlooked events tag origin) (he : e ≠ .purge origin.document) :
    s.Overlooked (events ++ [e]) tag origin := by
  obtain ⟨before, document, later, rfl, htwin, hlater⟩ := h
  refine ⟨before, document, later ++ [e], ?_, htwin, ?_⟩
  · rw [List.append_assoc, List.cons_append]
  · intro hmem
    rcases List.mem_append.mp hmem with hmem | hmem
    · exact hlater hmem
    · exact he (List.mem_singleton.mp hmem).symm

/-- While no twins are overlooked, reports and rejected declarations agree. -/
theorem registered_eq_rejected (s : Session) (tag : String) (origin : Origin)
    (hs : s.diagnostics.registered tag origin = s.registry.rejected tag origin)
    (events : List Event) (h : ¬ s.Overlooked events tag origin) :
    (s.run events).diagnostics.registered tag origin =
      (s.run events).registry.rejected tag origin := by
  induction events using List.reverseRecOn with
  | nil => exact hs
  | append_singleton events e ih =>
    rw [run_append_singleton]
    have hagree (he : e ≠ .purge origin.document) :=
      ih fun hover => h (overlooked_append s events e tag origin hover he)
    cases e with
    | register t attributes place =>
      obtain ⟨n, hregistered, hrejected⟩ :=
        exists_register (s.run events) t attributes place tag origin
      rw [after_register, hregistered, hrejected, hagree (by simp)]
    | resolve =>
      rw [after_resolve, rejected_resolve]
      exact hagree (by simp)
    | purge document =>
      have hrejected := Registry.rejected_purge (s.run events).registry tag origin document
      rw [after_purge, registered_purge, registered_forget, rejected_purge]
      split at hrejected
      · rename_i hpromoted
        rw [if_pos hpromoted]
        by_contra hne
        refine h ⟨events, document, [], rfl, ⟨hpromoted.1, ?_, ?_⟩, List.not_mem_nil⟩
        · rw [holder?_purge]
          exact hpromoted.2
        · rw [rejected_purge]
          omega
      · rename_i hpromoted
        rw [if_neg hpromoted]
        rw [Nat.add_zero] at hrejected
        rw [hrejected]
        by_cases hdocument : origin.document = document
        · rw [if_pos hdocument, if_pos hdocument]
        · rw [if_neg hdocument, if_neg hdocument]
          apply hagree
          intro e
          exact hdocument (Event.purge.inj e).symm

/-- The holder of a tag keeps its place, and what separates the two counts for this
place stays the same, until its document is withdrawn. -/
theorem after_of_holder (s : Session) (e : Event) (tag : String) (origin : Origin)
    (he : e ≠ .purge origin.document) (hholder : s.registry.holder? tag = some origin) :
    (s.after e).registry.holder? tag = some origin ∧
    ∃ n, (s.after e).diagnostics.registered tag origin =
        s.diagnostics.registered tag origin + n ∧
      (s.after e).registry.rejected tag origin = s.registry.rejected tag origin + n := by
  cases e with
  | register t attributes place =>
    refine ⟨?_, exists_register s t attributes place tag origin⟩
    rw [after_register]
    cases hblank : Text.isBlankText t with
    | true => rwa [register_blank s t attributes place hblank]
    | false =>
      rw [register_not_blank s t attributes place hblank]
      exact Registry.holder?_register s.registry tag origin _ hholder
  | resolve =>
    refine ⟨?_, 0, rfl, rejected_resolve s tag origin⟩
    exact (Resolution.holder?_ofRegistry s.index s.registry tag).trans hholder
  | purge document =>
    have hdocument : origin.document ≠ document := by
      intro h
      exact he (congrArg Event.purge h.symm)
    have hheld := Registry.not_mem_heldFrom s.registry tag origin document hholder hdocument
    have hrejected := Registry.rejected_purge s.registry tag origin document
    refine ⟨?_, 0, ?_, ?_⟩
    · rw [after_purge, holder?_purge, Registry.holder?_purge, if_neg hheld]
      exact hholder
    · rw [after_purge, registered_purge, registered_forget, if_neg (fun h => hheld h.1),
        if_neg hdocument, Nat.add_zero]
    · rw [after_purge, rejected_purge]
      simpa only [hheld, false_and, if_false, hdocument, Nat.add_zero] using hrejected

theorem registered_add_run (s : Session) (tag : String) (origin : Origin) (k : Nat)
    (hholder : s.registry.holder? tag = some origin)
    (hk : s.diagnostics.registered tag origin + k = s.registry.rejected tag origin)
    (later : List Event) (hlater : .purge origin.document ∉ later) :
    (s.run later).diagnostics.registered tag origin + k =
      (s.run later).registry.rejected tag origin := by
  induction later generalizing s with
  | nil => exact hk
  | cons e later ih =>
    rw [List.mem_cons, not_or] at hlater
    obtain ⟨hholder', n, hregistered, hrejected⟩ :=
      after_of_holder s e tag origin (Ne.symm hlater.1) hholder
    apply ih (s.after e) hholder' ?_ hlater.2
    omega

/-- Of twins that a purge leaves behind, no report is left. -/
theorem registered_of_leavesTwin (s : Session) (document tag : String) (origin : Origin)
    (h : s.LeavesTwin document tag origin) :
    (s.purge document).1.diagnostics.registered tag origin = 0 := by
  obtain ⟨hheld, hholder, -⟩ := h
  rw [holder?_purge] at hholder
  rw [registered_purge, registered_forget, if_pos ⟨hheld, hholder⟩]

theorem registered_add_of_leavesTwin (s : Session) (before later : List Event)
    (document tag : String) (origin : Origin)
    (h : (s.run before).LeavesTwin document tag origin)
    (hlater : .purge origin.document ∉ later) :
    (s.run (before ++ .purge document :: later)).diagnostics.registered tag origin +
        (s.run (before ++ [.purge document])).registry.rejected tag origin =
      (s.run (before ++ .purge document :: later)).registry.rejected tag origin := by
  have hsplit : before ++ Event.purge document :: later =
      (before ++ [.purge document]) ++ later := by simp
  rw [hsplit, run_append s _ later, run_append_singleton]
  refine registered_add_run _ tag origin _ h.2.1 ?_ later hlater
  have hnone := registered_of_leavesTwin (s.run before) document tag origin h
  rw [after_purge, hnone, Nat.zero_add]

/-- A resolution reports unresolved references only. -/
theorem reported_eq_registered (s : Session)
    (hs : ∀ d ∈ s.diagnostics.resolution, d.kind = .unresolvedReference) (events : List Event)
    (tag : String) (origin : Origin) :
    (s.run events).diagnostics.reported tag origin =
      (s.run events).diagnostics.registered tag origin := by
  have hkind : ∀ d ∈ (s.run events).diagnostics.resolution, d.kind = .unresolvedReference := by
    refine run_preserves (P := fun t => ∀ d ∈ t.diagnostics.resolution,
      d.kind = .unresolvedReference) ?_ ?_ ?_ s hs events
    · intro t tag attributes place ht
      cases hblank : Text.isBlankText tag with
      | true => rwa [register_blank t tag attributes place hblank]
      | false =>
        rw [register_not_blank t tag attributes place hblank]
        exact ht
    · intro t document ht
      rwa [resolution_forget]
    · intro t ht d hd
      obtain ⟨m, -, rfl⟩ := List.mem_map.mp (List.mem_eraseDups.mp hd)
      rfl
  unfold Diagnostics.reported Diagnostics.all
  rw [List.countP_append]
  have hnone : (s.run events).diagnostics.resolution.countP
      (Diagnostic.isDuplicate tag origin) = 0 := by
    rw [List.countP_eq_zero]
    intro d hd h
    have hduplicate := (Diagnostic.isDuplicate_iff.mp h).1
    rw [hkind d hd] at hduplicate
    contradiction
  rw [hnone, Nat.add_zero]
  rfl

/-- After every history there are as many reports as rejected declarations for a tag and
a place, less the twins that were overlooked. A tag with rejected declarations, none of
them overlooked, has a report. -/
theorem reported_add_overlooked (index : Relationship.Index) (capacity : Nat)
    (events : List Event) (tag : String) :
    let start := empty index capacity
    let s := start.run events
    (∀ origin, s.diagnostics.reported tag origin = s.registry.rejected tag origin ↔
      ¬ start.Overlooked events tag origin) ∧
    (∀ origin before document later, events = before ++ .purge document :: later →
      (start.run before).LeavesTwin document tag origin → .purge origin.document ∉ later →
      s.diagnostics.reported tag origin +
          (start.run (before ++ [.purge document])).registry.rejected tag origin =
        s.registry.rejected tag origin) ∧
    (s.registry.waiting tag ≠ [] → (∀ origin, ¬ start.Overlooked events tag origin) →
      ∃ d ∈ s.diagnostics.all, d.kind = .duplicateTag ∧ d.tag = tag) := by
  intro start s
  have hreported := reported_eq_registered start (fun _ hd => by cases hd) events tag
  have hagree (origin : Origin) (h : ¬ start.Overlooked events tag origin) :
      s.diagnostics.reported tag origin = s.registry.rejected tag origin := by
    rw [hreported]
    exact registered_eq_rejected start tag origin rfl events h
  have hdeficit (origin : Origin) (before : List Event) (document : String) (later : List Event)
      (hevents : events = before ++ .purge document :: later)
      (htwin : (start.run before).LeavesTwin document tag origin)
      (hlater : .purge origin.document ∉ later) :
      s.diagnostics.reported tag origin +
          (start.run (before ++ [.purge document])).registry.rejected tag origin =
        s.registry.rejected tag origin := by
    rw [hreported]
    have h := registered_add_of_leavesTwin start before later document tag origin htwin hlater
    rwa [← hevents] at h
  refine ⟨?_, hdeficit, ?_⟩
  · intro origin
    refine ⟨?_, hagree origin⟩
    intro hequal hover
    obtain ⟨before, document, later, hevents, htwin, hlater⟩ := hover
    have hmissing := hdeficit origin before document later hevents htwin hlater
    have hleft := htwin.2.2
    rw [← after_purge, ← run_append_singleton] at hleft
    omega
  · intro hwaiting hnone
    obtain ⟨item, hitem⟩ := List.exists_mem_of_ne_nil _ hwaiting
    obtain ⟨log, hlog⟩ := exists_keeps_run start ⟨[], Registry.keeps_empty⟩ events
    have hshadowed := List.mem_filter.mp hitem
    have hdeclared : item.isDeclared = true := by
      rw [hlog.waiting_eq] at hitem
      exact hlog.declared item ((Registry.Log.mem_claims ..).mp (List.mem_of_mem_tail hitem)).1
    obtain ⟨origin, horigin⟩ := (Item.isDeclared_iff item).mp hdeclared
    have hrejected : 0 < s.registry.rejected tag origin := by
      rw [Registry.rejected, List.countP_pos_iff]
      exact ⟨item, hshadowed.1, Item.isClaim_iff.mpr ⟨beq_iff_eq.mp hshadowed.2, horigin⟩⟩
    rw [← hagree origin (hnone origin), Diagnostics.reported, List.countP_pos_iff] at hrejected
    obtain ⟨d, hd, hduplicate⟩ := hrejected
    have hparts := Diagnostic.isDuplicate_iff.mp hduplicate
    exact ⟨d, hd, hparts.1, hparts.2.1⟩

/-- Two declarations of a tag on one line wait for it. When the first of them takes the
tag over, the report on the other one is taken back as well. -/
theorem twin_not_reported : ¬ ∀ (index : Relationship.Index) (capacity : Nat)
    (events : List Event) (tag : String) (origin : Origin),
    let s := (empty index capacity).run events
    s.diagnostics.reported tag origin = s.registry.rejected tag origin := by
  intro h
  have htwin := h .empty 1
    [.register "X" ∅ ⟨"a.rst", 1⟩, .register "X" ∅ ⟨"b.yaml", 1⟩, .register "X" ∅ ⟨"b.yaml", 1⟩,
      .purge "a.rst"] "X" ⟨"b.yaml", 1⟩
  revert htwin
  decide

end Session

end Traceability
