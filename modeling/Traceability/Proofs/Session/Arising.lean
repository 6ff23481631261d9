import Traceability.Proofs.Session.Closure

/-!
The sessions that come about, and what holds of every one of them: its relationships
agree with each other, and its register keeps the log of its declarations. A resolution
then leaves no relative without an item.
-/

namespace Traceability.Session

/-- Declarations are registered and withdrawn and links are resolved, in any order. What
a session is asked changes its parsed filters alone. -/
inductive Arises : Session → Prop
  | opened {types : List Relationship} {capacity : Nat} {s : Session}
      (h : ofRelationships types capacity = .ok s) : Arises s
  | register {s : Session} (h : Arises s) (tag : String) (attributes : Attributes)
      (origin : Origin) : Arises (s.register tag attributes origin).1
  | forget {s : Session} (h : Arises s) (document : String) : Arises (s.forget document).1
  | resolve {s : Session} (h : Arises s) : Arises s.resolve.1
  | asked {s : Session} (h : Arises s) (cache : Filter.Cache) : Arises { s with cache }

theorem exists_index_of_ofRelationships {types : List Relationship} {capacity : Nat} {s : Session}
    (h : ofRelationships types capacity = .ok s) :
    ∃ index, Relationship.Index.ofList types = .ok index ∧ s = empty index capacity := by
  unfold ofRelationships at h
  cases htypes : Relationship.Index.ofList types with
  | error conflict => simp [htypes] at h
  | ok index => exact ⟨index, rfl, by simpa [htypes, eq_comm] using h⟩

namespace Arises

variable {s : Session}

theorem run (h : Arises s) (events : List Event) : Arises (s.run events) :=
  run_preserves (fun _ tag attributes origin h => h.register tag attributes origin)
    (fun _ document h => h.forget document) (fun _ h => h.resolve) s h events

/-- A session has the relationships that it was opened with. -/
theorem exists_types (h : Arises s) : ∃ types, Relationship.Index.ofList types = .ok s.index := by
  induction h with
  | opened h =>
    obtain ⟨index, htypes, rfl⟩ := exists_index_of_ofRelationships h
    exact ⟨_, htypes⟩
  | register _ tag attributes origin ih => rwa [index_register]
  | forget _ _ ih => exact ih
  | resolve _ ih => exact ih
  | asked _ _ ih => exact ih

theorem exact_index (h : Arises s) : s.index.Exact := by
  obtain ⟨types, htypes⟩ := h.exists_types
  exact Relationship.Index.exact_ofList htypes

theorem exists_keeps (h : Arises s) : ∃ log, s.registry.Keeps log := by
  induction h with
  | opened h =>
    obtain ⟨index, -, rfl⟩ := exists_index_of_ofRelationships h
    exact ⟨[], Registry.keeps_empty⟩
  | register _ tag attributes origin ih =>
    obtain ⟨log, hlog⟩ := ih
    exact ⟨_, keeps_register hlog tag attributes origin⟩
  | forget _ document ih =>
    obtain ⟨log, hlog⟩ := ih
    exact ⟨_, hlog.purge document⟩
  | resolve _ ih =>
    obtain ⟨log, hlog⟩ := ih
    exact ⟨log, keeps_resolve hlog⟩
  | asked _ _ ih => exact ih

theorem keyed (h : Arises s) : s.registry.Keyed := by
  obtain ⟨log, hlog⟩ := h.exists_keeps
  exact hlog.keyed

/-- The relatives in a resolved session are registered. -/
theorem isSome_of_related (h : Arises s) (a name b : String)
    (hrelated : s.resolve.1.registry.Related a name b) :
    (s.resolve.1.registry.get? b).isSome = true :=
  Resolution.isSome_of_related h.exact_index h.keyed a name b hrelated

end Arises

end Traceability.Session
