import Traceability.Proofs.Registry.Log

/-!
Every history of a register is read off its log: which tags are declared and by
which declaration, which registration is rejected and with what answer, and which
tags a withdrawal frees.
-/

namespace Traceability.Registry

/-- What can happen to a register. A placeholder is registered as an item without
origin, or asked for by its tag. -/
inductive Event where
  | register (item : Item)
  | ensure (tag : String)
  | purge (document : String)
  | resolve (index : Relationship.Index)

def after (r : Registry) : Event → Registry
  | .register item => (r.register item).1
  | .ensure tag => r.ensure tag
  | .purge document => (r.purge document).1
  | .resolve index => (Resolution.ofRegistry index r).registry

def run (r : Registry) (events : List Event) : Registry := events.foldl after r

namespace Log

def after (log : Log) : Event → Log
  | .register item => log.add item
  | .ensure _ => log
  | .purge document => log.withdraw document
  | .resolve _ => log

def ofEvents (events : List Event) : Log := events.foldl after []

end Log

variable {r : Registry} {log : Log}

theorem Keeps.after (h : r.Keeps log) (e : Event) : (r.after e).Keeps (log.after e) := by
  cases e with
  | register item => exact h.register item
  | ensure tag => exact h.ensure tag
  | purge document => exact h.purge document
  | resolve index => exact h.resolve index

theorem keeps_run (events : List Event) : (empty.run events).Keeps (Log.ofEvents events) := by
  have fold (events : List Event) {r : Registry} {log : Log} (h : r.Keeps log) :
      (events.foldl Registry.after r).Keeps (events.foldl Log.after log) := by
    induction events generalizing r log with
    | nil => exact h
    | cons e events ih => exact ih (h.after e)
  exact fold events keeps_empty

namespace Keeps

theorem exists_declared_iff (h : r.Keeps log) (tag : String) :
    (∃ item, r.get? tag = some item ∧ item.isDeclared = true) ↔ ∃ item ∈ log, item.tag = tag := by
  have hholder : (∃ item, r.get? tag = some item ∧ item.isDeclared = true) ↔
      r.holder? tag ≠ none := by
    unfold holder?
    cases r.get? tag <;> simp [Item.isDeclared, Option.isSome_iff_ne_none]
  rw [hholder, Ne, h.holder?_eq_none_iff, ← List.head?_eq_none_iff, Log.head?_claims,
    Log.first?_eq_none_iff]
  simp

/-- What holds a tag is the first claim to it, up to the links it has by now. -/
theorem first_of_declared (h : r.Keeps log) (tag : String) (item : Item)
    (hget : r.get? tag = some item) (hdeclared : item.isDeclared = true) :
    ∃ first, log.first? tag = some first ∧ first.withoutRelatives = item.withoutRelatives := by
  have hfirst := h.holds_first tag
  rw [get?_unresolved, hget, Log.head?_claims] at hfirst
  simp only [Option.filter, hdeclared, if_true, Option.map_some] at hfirst
  exact (Option.map_eq_some_iff).mp hfirst.symm

/-- A declaration is rejected exactly if its tag is in the log. The answer names the
first claim, and the registered items stay as they are. -/
theorem register_answer (h : r.Keeps log) (item : Item) (origin : Origin)
    (hitem : item.origin = some origin) :
    (log.first? item.tag = none ∧ (r.register item).2 = none) ∨
    ∃ first earlier, log.first? item.tag = some first ∧ first.origin = some earlier ∧
      (r.register item).2 = some ⟨item.tag, earlier, origin⟩ ∧
      (r.register item).1.items = r.items := by
  have heq := h.holder?_eq item.tag
  cases hholder : r.holder? item.tag with
  | none =>
    refine Or.inl ⟨?_, by rw [register_of_free r item origin hitem hholder]⟩
    rw [← Log.head?_claims, List.head?_eq_none_iff]
    exact (h.holder?_eq_none_iff item.tag).mp hholder
  | some earlier =>
    rw [hholder] at heq
    obtain ⟨first, hfirst, horigin⟩ := Option.bind_eq_some_iff.mp heq.symm
    refine Or.inr ⟨first, earlier, hfirst, horigin, ?_⟩
    rw [register_of_held r item origin earlier hitem hholder]
    exact ⟨rfl, rfl⟩

/-- Where nothing in the log is of a document, nothing registered or waiting is. -/
theorem not_isFrom (h : r.Keeps log) {document : String}
    (hlog : ∀ item ∈ log, item.isFrom document = false) (item : Item)
    (hitem : item ∈ r.all ∨ item ∈ r.shadowed) : item.isFrom document = false := by
  rcases hitem with hitem | hitem
  · obtain ⟨tag, hget⟩ := SortedMap.mem_values.mp hitem
    cases hdeclared : item.isDeclared with
    | false =>
      have hnone : item.origin = none := by simpa [Item.isDeclared] using hdeclared
      simp [Item.isFrom, hnone]
    | true =>
      obtain ⟨first, hfirst, heq⟩ := h.first_of_declared tag item hget hdeclared
      have horigin : item.origin = first.origin := by
        rw [← Item.origin_withoutRelatives item, ← heq, Item.origin_withoutRelatives]
      rw [← hlog first (List.mem_of_find?_eq_some hfirst), Item.isFrom, Item.isFrom, horigin]
  · exact hlog item (h.mem_of_mem_shadowed hitem)

/-- Nothing of a withdrawn document is left, neither registered nor waiting. -/
theorem not_isFrom_purge (h : r.Keeps log) (document : String) (item : Item)
    (hitem : item ∈ (r.purge document).1.all ∨ item ∈ (r.purge document).1.shadowed) :
    item.isFrom document = false := by
  refine (h.purge document).not_isFrom ?_ item hitem
  intro declared hdeclared
  simpa using (List.mem_filter.mp hdeclared).2

end Keeps

/-- The register refines its log of declarations. -/
theorem run_refines_log (events : List Event) :
    let r := empty.run events
    let log := Log.ofEvents events
    (∀ tag, (∃ item, r.get? tag = some item ∧ item.isDeclared = true) ↔
      ∃ item ∈ log, item.tag = tag) ∧
    (∀ tag item, r.get? tag = some item → item.isDeclared = true →
      ∃ first, log.first? tag = some first ∧ item.tag = tag ∧
        item.attributes = first.attributes ∧ item.origin = first.origin) ∧
    (∀ item origin, item.origin = some origin →
      ((r.register item).2.isSome = true ↔ ∃ earlier ∈ log, earlier.tag = item.tag) ∧
      ∀ duplicate, (r.register item).2 = some duplicate →
        (∃ first, log.first? item.tag = some first ∧ first.origin = some duplicate.first) ∧
        duplicate.tag = item.tag ∧ duplicate.duplicate = origin ∧
        (r.register item).1.items = r.items) ∧
    (∀ document, ((r.purge document).2.Pairwise fun s t => Rank.before s t = true) ∧
      ∀ tag, tag ∈ (r.purge document).2 ↔
        ∃ first, log.first? tag = some first ∧ first.isFrom document = true) ∧
    ∀ document item, item ∈ (r.purge document).1.all ∨ item ∈ (r.purge document).1.shadowed →
      item.isFrom document = false := by
  intro r log
  have h : r.Keeps log := keeps_run events
  refine ⟨h.exists_declared_iff, ?_, ?_, ?_, h.not_isFrom_purge⟩
  · intro tag item hget hdeclared
    obtain ⟨first, hfirst, heq⟩ := h.first_of_declared tag item hget hdeclared
    refine ⟨first, hfirst, h.keyed tag item hget, ?_, ?_⟩
    · exact (congrArg Item.attributes heq).symm
    · exact (congrArg Item.origin heq).symm
  · intro item origin hitem
    have hnone := Log.first?_eq_none_iff log item.tag
    rcases h.register_answer item origin hitem with
      ⟨hfree, hanswer⟩ | ⟨first, earlier, hfirst, horigin, hanswer, hitems⟩
    · rw [hanswer]
      refine ⟨?_, fun _ hduplicate => by cases hduplicate⟩
      simpa using hnone.mp hfree
    · rw [hanswer]
      constructor
      · simp only [Option.isSome_some, true_iff]
        exact ⟨first, List.mem_of_find?_eq_some hfirst, Log.tag_of_first? hfirst⟩
      · intro duplicate hduplicate
        obtain rfl := Option.some.inj hduplicate
        exact ⟨⟨first, hfirst, horigin⟩, rfl, rfl, hitems⟩
  · intro document
    exact ⟨increasing_heldFrom r document, h.mem_heldFrom_iff document⟩

end Traceability.Registry
