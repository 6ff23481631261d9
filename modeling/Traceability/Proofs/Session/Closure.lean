import Traceability.Proofs.Session.Run

/-!
The links of a resolved session are the symmetric closure of what its declarations
name. Together with them a resolution brings exactly the placeholders that these
names need, and a second one finds nothing left to do.
-/

namespace Traceability

namespace Resolution

variable {index : Relationship.Index} {r : Registry} (hindex : index.Exact) (hr : r.Keyed)
include hindex hr

/-- Two items are related under a configured name if one of them names the other. -/
theorem related_ofRegistry_iff (a name b : String) :
    (ofRegistry index r).registry.Related a name b ↔
      index.contains name = true ∧ (r.Names a name b ∨ r.Names b (index.opposite name) a) := by
  have hholds := Registry.holds_iff (ofRegistry index r).registry ⟨a, b, name⟩
  rw [holds_ofRegistry, mem_links hindex hr] at hholds
  exact hholds.symm

theorem related_ofRegistry_comm (a name b : String) :
    (ofRegistry index r).registry.Related a name b ↔
      (ofRegistry index r).registry.Related b (index.opposite name) a := by
  rw [related_ofRegistry_iff hindex hr, related_ofRegistry_iff hindex hr]
  cases hname : index.contains name with
  | true =>
    have hback := Relationship.Index.opposite_opposite hindex name hname
    rw [hback.1, hback.2, or_comm]
  | false =>
    have hnone : index.opposite? name = none := by
      rw [← Option.not_isSome_iff_eq_none]
      exact Bool.eq_false_iff.mp hname
    rw [Relationship.Index.opposite, hnone, Option.getD_none, hname]
    simp

theorem isSome_of_related (a name b : String)
    (h : (ofRegistry index r).registry.Related a name b) :
    ((ofRegistry index r).registry.get? b).isSome = true := by
  obtain ⟨item, hget, -⟩ := (related_ofRegistry_comm hindex hr a name b).mp h
  rw [hget]
  rfl

theorem get?_ofRegistry_of_declares (tag : String) (h : r.declares tag = true) :
    ((ofRegistry index r).registry.get? tag).map Item.withoutRelatives =
      (r.get? tag).map Item.withoutRelatives := by
  have hdangling : tag ∉ danglingTags index r := by
    simp [mem_danglingTags hindex hr, h]
  rw [withoutRelatives_ofRegistry hindex hr, get?_complete hindex hr, if_neg hdangling,
    Registry.get?_unresolved_of_declares r tag h, Option.map_map]
  rfl

theorem get?_ofRegistry_of_mentions (tag : String) (h : r.declares tag = false)
    (hmentions : r.Mentions index tag) :
    ((ofRegistry index r).registry.get? tag).map Item.withoutRelatives =
      some (Item.placeholder tag) := by
  have hdangling := (mem_danglingTags hindex hr tag).mpr ⟨h, hmentions⟩
  rw [withoutRelatives_ofRegistry hindex hr, get?_complete hindex hr, if_pos hdangling]
  rfl

theorem get?_ofRegistry_of_not_mentions (tag : String) (h : r.declares tag = false)
    (hmentions : ¬ r.Mentions index tag) :
    (ofRegistry index r).registry.get? tag = none := by
  have hdangling : tag ∉ danglingTags index r := by
    intro hmem
    exact hmentions ((mem_danglingTags hindex hr tag).mp hmem).2
  have hnone : r.unresolved.get? tag = none := by
    rw [← Option.not_isSome_iff_eq_none, Registry.isSome_get?_unresolved, h]
    exact Bool.false_ne_true
  have hcomplete := withoutRelatives_ofRegistry hindex hr tag
  rw [get?_complete hindex hr, if_neg hdangling, hnone] at hcomplete
  exact Option.map_eq_none_iff.mp hcomplete

end Resolution

namespace Session

theorem resolve_resolve (s : Session) : s.resolve.1.resolve = s.resolve := by
  have h := Resolution.ofRegistry_ofRegistry s.index s.registry
  unfold resolve
  simp only [h]
  rfl

/-- After every history, a resolution keeps the declarations, adds a placeholder for
every other tag that they name, links exactly the pairs of which one names the other,
counts all this, and need not be repeated. -/
theorem resolve_closure (types : List Relationship) (capacity : Nat) (start : Session)
    (hstart : ofRelationships types capacity = .ok start) (events : List Event) :
    let s := start.run events
    let resolved := s.resolve.1
    (∀ name other, s.index.opposite? name = some other ↔ ∃ r ∈ types, r.Pairs name other) ∧
    ((∀ tag, s.registry.declares tag = true →
        (resolved.registry.get? tag).map Item.withoutRelatives =
          (s.registry.get? tag).map Item.withoutRelatives) ∧
      (∀ tag, s.registry.declares tag = false → s.registry.Mentions s.index tag →
        (resolved.registry.get? tag).map Item.withoutRelatives = some (Item.placeholder tag)) ∧
      ∀ tag, s.registry.declares tag = false → ¬ s.registry.Mentions s.index tag →
        resolved.registry.get? tag = none) ∧
    ((∀ a name b, resolved.registry.Related a name b ↔
        s.index.contains name = true ∧
          (s.registry.Names a name b ∨ s.registry.Names b (s.index.opposite name) a)) ∧
      (∀ a name b, resolved.registry.Related a name b ↔
        resolved.registry.Related b (s.index.opposite name) a) ∧
      ∀ a name b, resolved.registry.Related a name b →
        (resolved.registry.get? b).isSome = true) ∧
    (s.resolve.2 = ⟨(resolved.registry.all.filter Item.isDeclared).length,
        (resolved.registry.all.filter fun item => !item.isDeclared).length,
        resolved.registry.links.length⟩ ∧
      resolved.registry.links.Nodup ∧
      ∀ a name b, ⟨a, b, name⟩ ∈ resolved.registry.links ↔
        resolved.registry.Related a name b) ∧
    resolved.resolve = s.resolve := by
  intro s resolved
  obtain ⟨index, htypes, rfl⟩ : ∃ index, Relationship.Index.ofList types = .ok index ∧
      start = empty index capacity := by
    unfold ofRelationships at hstart
    cases htypes : Relationship.Index.ofList types with
    | error conflict => simp [htypes] at hstart
    | ok index => exact ⟨index, rfl, by simpa [htypes, eq_comm] using hstart⟩
  have hsame : s.index = index := index_run _ events
  have hindex : s.index.Exact := by
    rw [hsame]
    exact Relationship.Index.exact_ofList htypes
  obtain ⟨log, hlog⟩ := exists_keeps_run (empty index capacity) ⟨[], Registry.keeps_empty⟩ events
  have hkeyed : s.registry.Keyed := hlog.keyed
  have hresolved : resolved.registry.Keyed := (keeps_resolve hlog).keyed
  refine ⟨?_, ⟨?_, ?_, ?_⟩, ⟨?_, ?_, ?_⟩, ⟨?_, ?_, ?_⟩, resolve_resolve s⟩
  · intro name other
    rw [hindex, hsame, Relationship.Index.types_ofList htypes]
  · exact Resolution.get?_ofRegistry_of_declares hindex hkeyed
  · exact Resolution.get?_ofRegistry_of_mentions hindex hkeyed
  · exact Resolution.get?_ofRegistry_of_not_mentions hindex hkeyed
  · exact Resolution.related_ofRegistry_iff hindex hkeyed
  · exact Resolution.related_ofRegistry_comm hindex hkeyed
  · exact Resolution.isSome_of_related hindex hkeyed
  · have hdeclared := Resolution.declared_ofRegistry s.index s.registry
    have hplaceholders := Resolution.placeholders_ofRegistry hindex hkeyed
    have hlinks := Resolution.links_ofRegistry s.index s.registry hkeyed
    change (Resolution.ofRegistry s.index s.registry).summary = _
    rw [Resolution.Summary.mk.injEq]
    exact ⟨hdeclared, hplaceholders, hlinks⟩
  · exact Registry.nodup_links _ hresolved
  · intro a name b
    rw [Registry.mem_links _ hresolved, Registry.holds_iff]
    rfl

/-- A later declaration of a tag takes over with its own links and placeholders. -/
theorem resolve_closure_of_takeover :
    ∃ start, ofRelationships [.between "parents" "children"] 1 = .ok start ∧
      let s := start.run
        [.register "A" (.ofList [("parents", "B, C")]) ⟨"a.rst", 1⟩, .register "B" ∅ ⟨"b.rst", 1⟩,
          .register "A" (.ofList [("children", "B, D")]) ⟨"c.rst", 4⟩, .resolve, .purge "a.rst"]
      s.resolve.1.registry.Related "D" "parents" "A" ∧
        s.resolve.2 = ⟨2, 1, s.resolve.1.registry.links.length⟩ ∧ s.resolve.2.links = 4 ∧
        s.resolve.1.resolve = s.resolve := by
  refine ⟨_, rfl, ?_⟩
  intro s
  have h := resolve_closure [.between "parents" "children"] 1 _ rfl
    [.register "A" (.ofList [("parents", "B, C")]) ⟨"a.rst", 1⟩, .register "B" ∅ ⟨"b.rst", 1⟩,
      .register "A" (.ofList [("children", "B, D")]) ⟨"c.rst", 4⟩, .resolve, .purge "a.rst"]
  refine ⟨?_, ?_, by decide, h.2.2.2.2⟩
  · refine (h.2.2.1.1 "D" "parents" "A").mpr ⟨by decide, Or.inr ?_⟩
    exact ⟨_, rfl, rfl, "B, D", rfl, by decide⟩
  · rw [h.2.2.2.1.1]
    decide

end Session

end Traceability
