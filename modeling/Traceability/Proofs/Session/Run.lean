import Mathlib.Data.List.Induction
import Traceability.Session
import Traceability.Proofs.Registry.Log

/-!
Histories of a session: registrations, withdrawals and resolutions in any order.
Every operation is described by what it does to the register and to the problems
found, and what each operation preserves, every history preserves.
-/

namespace Traceability.Session

inductive Event where
  | register (tag : String) (attributes : Attributes) (origin : Origin)
  | purge (document : String)
  | resolve
deriving DecidableEq

def after (s : Session) : Event → Session
  | .register tag attributes origin => (s.register tag attributes origin).1
  | .purge document => (s.purge document).1
  | .resolve => s.resolve.1

def run (s : Session) (events : List Event) : Session := events.foldl after s

theorem run_append (s : Session) (before later : List Event) :
    s.run (before ++ later) = (s.run before).run later := List.foldl_append ..

theorem run_append_singleton (s : Session) (events : List Event) (e : Event) :
    s.run (events ++ [e]) = (s.run events).after e := run_append s events [e]

theorem after_register (s : Session) (tag : String) (attributes : Attributes) (origin : Origin) :
    s.after (.register tag attributes origin) = (s.register tag attributes origin).1 := rfl

theorem after_purge (s : Session) (document : String) :
    s.after (.purge document) = (s.purge document).1 := rfl

theorem after_resolve (s : Session) : s.after .resolve = s.resolve.1 := rfl

/-- What registrations, withdrawals and resolutions preserve holds after every history. -/
theorem run_preserves {P : Session → Prop}
    (hregister : ∀ s tag attributes origin, P s → P (s.register tag attributes origin).1)
    (hforget : ∀ s document, P s → P (s.forget document).1)
    (hresolve : ∀ s, P s → P s.resolve.1)
    (s : Session) (hs : P s) (events : List Event) : P (s.run events) := by
  induction events using List.reverseRecOn with
  | nil => exact hs
  | append_singleton events e ih =>
    rw [run_append_singleton]
    cases e with
    | register tag attributes origin => exact hregister _ tag attributes origin ih
    | purge document => exact hresolve _ (hforget _ document ih)
    | resolve => exact hresolve _ ih

theorem register_blank (s : Session) (tag : String) (attributes : Attributes) (origin : Origin)
    (h : Text.isBlankText tag = true) : (s.register tag attributes origin).1 = s := by
  simp [register, h]

/-- The report that a rejected declaration causes. -/
def duplicateReports : Option DuplicateTag → List Diagnostic
  | none => []
  | some d => [Diagnostic.duplicateTag d.tag d.duplicate]

/-- A declaration under a tag that is not blank reaches the register under the trimmed
tag, and its reports follow the earlier ones. -/
theorem register_not_blank (s : Session) (tag : String) (attributes : Attributes)
    (origin : Origin) (h : Text.isBlankText tag = false) :
    (s.register tag attributes origin).1 =
      let item := Item.declared (Text.trimmed tag) attributes origin
      { s with
        registry := (s.registry.register item).1
        diagnostics := s.diagnostics.record
          (nameReports (Text.trimmed tag) attributes origin ++
            duplicateReports (s.registry.register item).2) } := by
  unfold register
  rw [h]
  simp only [Bool.false_eq_true, if_false]
  cases hanswer : s.registry.register (Item.declared (Text.trimmed tag) attributes origin) with
  | mk registry answer =>
    cases answer with
    | none => simp [duplicateReports]
    | some duplicate => simp [duplicateReports, Diagnostics.record]

theorem registry_forget (s : Session) (document : String) :
    (s.forget document).1.registry = (s.registry.purge document).1 := rfl

theorem resolution_forget (s : Session) (document : String) :
    (s.forget document).1.diagnostics.resolution = s.diagnostics.resolution := by
  have fold (tags : List String) (d : Diagnostics) :
      (tags.foldl (dismissPromoted (s.registry.purge document).1) d).resolution =
        d.resolution := by
    induction tags generalizing d with
    | nil => rfl
    | cons t tags ih =>
      rw [List.foldl_cons, ih]
      unfold dismissPromoted
      split <;> rfl
  exact fold _ (s.diagnostics.purge document)

theorem index_register (s : Session) (tag : String) (attributes : Attributes) (origin : Origin) :
    (s.register tag attributes origin).1.index = s.index := by
  cases h : Text.isBlankText tag with
  | true => rw [register_blank s tag attributes origin h]
  | false => rw [register_not_blank s tag attributes origin h]

theorem registry_resolve (s : Session) :
    s.resolve.1.registry = (Resolution.ofRegistry s.index s.registry).registry := rfl

theorem index_run (s : Session) (events : List Event) : (s.run events).index = s.index := by
  refine run_preserves (P := fun t => t.index = s.index) ?_ ?_ ?_ s rfl events
  · intro t tag attributes origin ht
    rw [index_register, ht]
  · intro t document ht
    exact ht
  · intro t ht
    exact ht

/-- A registered declaration, or none under a blank tag. -/
def declaredItems (tag : String) (attributes : Attributes) (origin : Origin) : List Item :=
  if Text.isBlankText tag then [] else [Item.declared (Text.trimmed tag) attributes origin]

theorem keeps_register {s : Session} {log : Registry.Log} (h : s.registry.Keeps log)
    (tag : String) (attributes : Attributes) (origin : Origin) :
    (s.register tag attributes origin).1.registry.Keeps
      (log ++ declaredItems tag attributes origin) := by
  unfold declaredItems
  cases hblank : Text.isBlankText tag with
  | true => simpa [register_blank s tag attributes origin hblank] using h
  | false =>
    rw [register_not_blank s tag attributes origin hblank]
    exact h.register (Item.declared (Text.trimmed tag) attributes origin)

theorem keeps_resolve {s : Session} {log : Registry.Log} (h : s.registry.Keeps log) :
    s.resolve.1.registry.Keeps log := h.resolve s.index

theorem exists_keeps_run (s : Session) (hs : ∃ log, s.registry.Keeps log) (events : List Event) :
    ∃ log, (s.run events).registry.Keeps log := by
  refine run_preserves (P := fun t => ∃ log, t.registry.Keeps log) ?_ ?_ ?_ s hs events
  · rintro t tag attributes origin ⟨log, h⟩
    exact ⟨_, keeps_register h tag attributes origin⟩
  · rintro t document ⟨log, h⟩
    exact ⟨_, h.purge document⟩
  · rintro t ⟨log, h⟩
    exact ⟨log, keeps_resolve h⟩

end Traceability.Session
