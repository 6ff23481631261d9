import Traceability.Proofs.Project.Classification
import Traceability.Proofs.Session.Arising
import Traceability.Proofs.Session.Follows

/-!
One refresh. A session that follows the declarations of a folder, as it was seen last,
follows after a refresh those of the folder as it is now. Only the order in which they
are logged differs from that of a first reading.
-/

namespace Traceability

namespace Project

/-- What a source file declares. -/
def declaredItems (f : SourceFile) : List Item :=
  (declarations f).flatMap fun d => Session.declaredItems d.tag d.attributes ⟨f.document, d.line⟩

theorem isFrom_of_mem_declaredItems (f : SourceFile) (document : String) (item : Item)
    (h : item ∈ declaredItems f) : item.isFrom document = (f.document == document) := by
  obtain ⟨d, -, hitem⟩ := List.mem_flatMap.mp h
  unfold Session.declaredItems at hitem
  split at hitem
  · contradiction
  · rw [List.mem_singleton.mp hitem]
    rfl

/-- Withdrawing documents strikes what their files declare. -/
theorem filter_declaredItems (files : List SourceFile) (documents : List String) :
    ((files.flatMap declaredItems).filter fun item =>
        documents.all fun document => !item.isFrom document) =
      (files.filter fun f => decide (f.document ∉ documents)).flatMap declaredItems := by
  refine filter_flatMap_of_forall files fun f item hitem => ?_
  rw [Bool.eq_iff_iff, List.all_eq_true, decide_eq_true_eq]
  simp only [isFrom_of_mem_declaredItems f _ item hitem, Bool.not_eq_true', beq_eq_false_iff_ne]
  constructor
  · intro hne hmem
    exact hne f.document hmem rfl
  · intro hmem document hdocument heq
    exact hmem (heq ▸ hdocument)

end Project

/-- What the source files of a folder declare. -/
def Folder.declared (f : Folder) : Registry.Log := f.sources.flatMap Project.declaredItems

theorem Registry.Log.foldl_withdraw (documents : List String) (log : Registry.Log) :
    documents.foldl withdraw log =
      log.filter fun item => documents.all fun document => !item.isFrom document := by
  induction documents generalizing log with
  | nil => simp
  | cons document documents ih =>
    rw [List.foldl_cons, ih, withdraw, List.filter_filter]
    apply List.filter_congr
    intro item _
    rw [List.all_cons, Bool.and_comm]

namespace Session.Follows

variable {s : Session} {log : Registry.Log}

theorem forgetAll (h : s.Follows log) (documents : List String) :
    (Project.forgetAll s documents).Follows
      (log.filter fun item => documents.all fun document => !item.isFrom document) := by
  rw [← Registry.Log.foldl_withdraw]
  unfold Project.forgetAll
  induction documents generalizing s log with
  | nil => exact h
  | cons document documents ih => exact ih (h.forget document)

theorem registerAll (h : s.Follows log) (document : String) (found : List Document.Declaration) :
    (Project.registerAll document s found).Follows
      (log ++ found.flatMap fun d => declaredItems d.tag d.attributes ⟨document, d.line⟩) := by
  unfold Project.registerAll
  induction found generalizing s log with
  | nil => simpa using h
  | cons d found ih =>
    rw [List.foldl_cons, List.flatMap_cons, ← List.append_assoc]
    exact ih (h.register d.tag d.attributes ⟨document, d.line⟩)

theorem registerFiles (h : s.Follows log) (files : List SourceFile) (count : Nat) :
    (files.foldl Project.registerFile (s, count)).1.Follows
      (log ++ files.flatMap Project.declaredItems) := by
  induction files generalizing s log count with
  | nil => simpa using h
  | cons f files ih =>
    rw [List.foldl_cons, List.flatMap_cons, ← List.append_assoc]
    exact ih (h.registerAll f.document (Project.declarations f)) _

end Session.Follows

theorem Session.Arises.exists_follows {s : Session} (h : s.Arises) : ∃ log, s.Follows log := by
  induction h with
  | opened h =>
    obtain ⟨index, -, rfl⟩ := exists_index_of_ofRelationships h
    exact ⟨_, follows_empty index _⟩
  | register _ tag attributes origin ih =>
    obtain ⟨log, hlog⟩ := ih
    exact ⟨_, hlog.register tag attributes origin⟩
  | forget _ document ih =>
    obtain ⟨log, hlog⟩ := ih
    exact ⟨_, hlog.forget document⟩
  | resolve _ ih =>
    obtain ⟨log, hlog⟩ := ih
    exact ⟨_, hlog.resolve⟩
  | asked _ _ ih =>
    obtain ⟨log, hlog⟩ := ih
    exact ⟨log, hlog.keeps, hlog.names, hlog.located, hlog.rejected⟩

namespace Project

/-- The session of a refresh before links are resolved. -/
def registered (p : Project) (folder : Folder) (s : Session) : Session :=
  let c := Classification.ofFiles p.known folder.sources
  ((c.added ++ c.modified).foldl registerFile
    (forgetAll s (Classification.withdrawn p.known folder.sources), 0)).1

theorem known_refresh (p : Project) (folder : Folder) (s : Session) :
    (p.refresh folder s).1.known = (Classification.ofFiles p.known folder.sources).digests := rfl

/-- Where links are not resolved, nothing has changed. -/
theorem session_refresh (p : Project) (folder : Folder) (s : Session) :
    (p.refresh folder s).2.1 = (p.registered folder s).resolve.1 ∨
      (p.refresh folder s).2.1 = s ∧ p.registered folder s = s := by
  let c := Classification.ofFiles p.known folder.sources
  let gone := Classification.deleted p.known (folder.sources.map SourceFile.document)
  have hsession : (p.refresh folder s).2.1 =
      if decide (0 < c.added.length + c.modified.length + gone.length) = true then
        (p.registered folder s).resolve.1 else p.registered folder s := rfl
  rw [hsession]
  split
  · exact Or.inl rfl
  · rename_i hnone
    rw [decide_eq_true_eq] at hnone
    have hadded : c.added = [] := List.eq_nil_of_length_eq_zero (by omega)
    have hmodified : c.modified = [] := List.eq_nil_of_length_eq_zero (by omega)
    have hgone : gone = [] := List.eq_nil_of_length_eq_zero (by omega)
    have hsame : p.registered folder s = s := by
      change ((c.added ++ c.modified).foldl registerFile
        (forgetAll s (gone ++ c.modified.map SourceFile.document), 0)).1 = s
      rw [hadded, hmodified, hgone]
      rfl
    exact Or.inr ⟨hsame, hsame⟩

/-- A refresh follows what the session followed, less what it withdraws, and what it reads. -/
theorem follows_refresh (p : Project) (folder : Folder) {s : Session} {log : Registry.Log}
    (h : s.Follows log) :
    let c := Classification.ofFiles p.known folder.sources
    (p.refresh folder s).2.1.Follows
      ((log.filter fun item => (Classification.withdrawn p.known folder.sources).all
        fun document => !item.isFrom document) ++ (c.added ++ c.modified).flatMap declaredItems) := by
  intro c
  have hregistered : (p.registered folder s).Follows _ :=
    (h.forgetAll _).registerFiles (c.added ++ c.modified) 0
  rcases session_refresh p folder s with hsession | ⟨hsession, hsame⟩
  · rw [hsession]
    exact hregistered.resolve
  · rw [hsession]
    rwa [hsame] at hregistered

/-- After a refresh nothing is left of a known document that is gone. -/
theorem not_isFrom_refresh (p : Project) (folder : Folder) {s : Session} (h : s.Arises)
    {document : String} (hknown : (p.known.get? document).isSome = true)
    (hgone : document ∉ folder.sources.map SourceFile.document) (item : Item)
    (hitem : item ∈ (p.refresh folder s).2.1.registry.all ∨
      item ∈ (p.refresh folder s).2.1.registry.shadowed) : item.isFrom document = false := by
  obtain ⟨log, hlog⟩ := h.exists_follows
  refine (p.follows_refresh folder hlog).keeps.not_isFrom ?_ item hitem
  intro declared hdeclared
  rcases List.mem_append.mp hdeclared with hkept | hread
  · have hall := (List.mem_filter.mp hkept).2
    rw [List.all_eq_true] at hall
    have hwithdrawn : document ∈ Classification.withdrawn p.known folder.sources :=
      (Classification.mem_withdrawn ..).mpr ⟨hknown, Or.inl hgone⟩
    simpa using hall document hwithdrawn
  · obtain ⟨f, hf, hdeclared⟩ := List.mem_flatMap.mp hread
    have hsource : f ∈ folder.sources :=
      (Classification.perm_ofFiles p.known folder.sources).mem_iff.mp (List.mem_append_right _ hf)
    rw [isFrom_of_mem_declaredItems f document declared hdeclared]
    have hne : f.document ≠ document := fun heq => hgone (List.mem_map.mpr ⟨f, hsource, heq⟩)
    simpa using hne

theorem index_registered (p : Project) (folder : Folder) (s : Session) :
    (p.registered folder s).index = s.index := by
  have forgetAll_index (documents : List String) (s : Session) :
      (forgetAll s documents).index = s.index := by
    unfold forgetAll
    induction documents generalizing s with
    | nil => rfl
    | cons document documents ih => exact ih (s.forget document).1
  have registerAll_index (document : String) (found : List Document.Declaration) (s : Session) :
      (registerAll document s found).index = s.index := by
    unfold registerAll
    induction found generalizing s with
    | nil => rfl
    | cons d found ih => rw [List.foldl_cons, ih, Session.index_register]
  have registerFiles_index (files : List SourceFile) (state : Session × Nat) :
      (files.foldl registerFile state).1.index = state.1.index := by
    induction files generalizing state with
    | nil => rfl
    | cons f files ih =>
      rw [List.foldl_cons, ih]
      exact registerAll_index f.document (declarations f) state.1
  exact (registerFiles_index _ _).trans (forgetAll_index _ s)

/-- A refresh registers, withdraws and resolves, and does nothing else to a session. -/
theorem arises_refresh (p : Project) (folder : Folder) {s : Session} (h : s.Arises) :
    (p.refresh folder s).2.1.Arises := by
  have arises_forgetAll (documents : List String) {s : Session} (h : s.Arises) :
      (forgetAll s documents).Arises := by
    unfold forgetAll
    induction documents generalizing s with
    | nil => exact h
    | cons document documents ih => exact ih (h.forget document)
  have arises_registerAll (document : String) (found : List Document.Declaration) {s : Session}
      (h : s.Arises) : (registerAll document s found).Arises := by
    unfold registerAll
    induction found generalizing s with
    | nil => exact h
    | cons d found ih => exact ih (h.register d.tag d.attributes ⟨document, d.line⟩)
  have arises_registerFiles (files : List SourceFile) (state : Session × Nat)
      (h : state.1.Arises) : (files.foldl registerFile state).1.Arises := by
    induction files generalizing state with
    | nil => exact h
    | cons f files ih => exact ih _ (arises_registerAll f.document (declarations f) h)
  have hregistered : (p.registered folder s).Arises :=
    arises_registerFiles _ _ (arises_forgetAll _ h)
  rcases session_refresh p folder s with hsession | ⟨hsession, -⟩
  · rw [hsession]
    exact hregistered.resolve
  · rw [hsession]
    exact h

/-- The session is in step with the folder as it was seen last. -/
structure InStep (p : Project) (s : Session) (index : Relationship.Index) (seen : Folder) :
    Prop where
  plain : seen.Plain
  recorded : seen.Recorded p.known
  index_eq : s.index = index
  resolved : s.resolve.1 = s
  follows : ∃ log : Registry.Log, log.Perm seen.declared ∧ s.Follows log

/-- A session before the first reading is in step with the empty folder. -/
theorem inStep_empty (index : Relationship.Index) (capacity : Nat) :
    empty.InStep (Session.empty index capacity) index .empty where
  plain := Folder.plain_empty
  recorded := by
    intro document digest
    have hnone : empty.known.get? document = none := rfl
    rw [hnone, Folder.sources_empty]
    simp
  index_eq := rfl
  resolved := by
    rw [Session.resolve]
    change ({ Session.empty index capacity with
      registry := (Resolution.ofRegistry index .empty).registry
      diagnostics := Diagnostics.empty.withResolution
        (Resolution.ofRegistry index .empty).reports } : Session) = _
    rw [Resolution.ofRegistry_empty]
    rfl
  follows := by
    refine ⟨[], List.Perm.of_eq ?_, Session.follows_empty index capacity⟩
    rw [Folder.declared, Folder.sources_empty]
    rfl

namespace InStep

variable {p : Project} {s : Session} {index : Relationship.Index} {seen : Folder}

theorem registered (h : p.InStep s index seen) (folder : Folder) (hplain : folder.Plain)
    (hdigests : seen.Distinguishes folder) :
    ∃ log : Registry.Log, log.Perm folder.declared ∧ (p.registered folder s).Follows log := by
  obtain ⟨log, hperm, hfollows⟩ := h.follows
  let c := Classification.ofFiles p.known folder.sources
  let documents := Classification.withdrawn p.known folder.sources
  refine ⟨_, ?_, (hfollows.forgetAll documents).registerFiles (c.added ++ c.modified) 0⟩
  have hkept : (log.filter fun item => documents.all fun document => !item.isFrom document).Perm
      (c.unchanged.flatMap declaredItems) := by
    refine (hperm.filter _).trans ?_
    rw [Folder.declared, filter_declaredItems]
    exact (Classification.perm_unchanged h.plain hplain h.recorded hdigests).flatMap_right _
  refine (hkept.append_right _).trans ?_
  rw [← List.flatMap_append]
  exact (Classification.perm_ofFiles p.known folder.sources).flatMap_right _

theorem refresh (h : p.InStep s index seen) (folder : Folder) (hplain : folder.Plain)
    (hdigests : seen.Distinguishes folder) :
    (p.refresh folder s).1.InStep (p.refresh folder s).2.1 index folder := by
  obtain ⟨log, hperm, hfollows⟩ := h.registered folder hplain hdigests
  have hindex := (index_registered p folder s).trans h.index_eq
  have hrecorded : folder.Recorded (p.refresh folder s).1.known := by
    rw [known_refresh]
    exact Classification.recorded_digests p.known hplain
  rcases session_refresh p folder s with hsession | ⟨hsession, hsame⟩
  · rw [hsession]
    exact ⟨hplain, hrecorded, hindex, congrArg Prod.fst (Session.resolve_resolve _),
      log, hperm, hfollows.resolve⟩
  · rw [hsession]
    rw [hsame] at hfollows
    exact ⟨hplain, hrecorded, h.index_eq, h.resolved, log, hperm, hfollows⟩

end InStep

end Project

end Traceability
