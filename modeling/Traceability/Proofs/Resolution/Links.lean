import Mathlib.Data.List.Nodup
import Traceability.Resolution
import Traceability.Proofs.Registry.Effects

/-!
The links that a register holds. Storing links adds exactly these links and leaves
the declared items and, where all sources are registered, the set of items as it is.
The count of stored links is the growth of the list of links.
-/

namespace Traceability

namespace Item

theorem mem_relatives (i : Item) (name tag : String) :
    tag ∈ i.relatives name ↔
      ∃ tags, i.relationships.get? name = some tags ∧ tag ∈ tags.toList := by
  unfold relatives
  cases i.relationships.get? name <;> simp

theorem mem_relatives_addRelative (i : Item) (name tag name' tag' : String) :
    tag' ∈ (i.addRelative name tag).relatives name' ↔
      name' = name ∧ tag' = tag ∨ tag' ∈ i.relatives name' := by
  have halter : (i.addRelative name tag).relationships.get? name' =
      if name' = name then some (((i.relationships.get? name).getD ∅).insert tag)
      else i.relationships.get? name' :=
    SortedMap.get?_alter i.relationships name name' _
  rw [mem_relatives, mem_relatives, halter]
  by_cases h : name' = name
  · subst h
    cases hg : i.relationships.get? name' with
    | none =>
      have hempty := SortedSet.mem_empty tag'
      simp [SortedSet.mem_insert, hempty]
    | some tags => simp [SortedSet.mem_insert]
  · simp [h]

/-- One link for every relative, by relationship name and then by tag. -/
def links (i : Item) : List Link :=
  i.relationships.entries.flatMap fun (name, tags) => tags.toList.map fun tag => ⟨i.tag, tag, name⟩

theorem mem_links (i : Item) (l : Link) :
    l ∈ i.links ↔ l.source = i.tag ∧ l.target ∈ i.relatives l.name := by
  obtain ⟨source, target, name⟩ := l
  simp only [links, List.mem_flatMap, List.mem_map, Prod.exists, SortedMap.mem_entries,
    mem_relatives, Link.mk.injEq]
  constructor
  · intro hparts
    obtain ⟨_, tags, hget, _, hmem, rfl, rfl, rfl⟩ := hparts
    exact ⟨rfl, tags, hget, hmem⟩
  · intro hparts
    obtain ⟨rfl, tags, hget, hmem⟩ := hparts
    exact ⟨name, tags, hget, target, hmem, rfl, rfl, rfl⟩

theorem nodup_links (i : Item) : i.links.Nodup := by
  rw [links, List.nodup_flatMap]
  constructor
  · rintro ⟨name, tags⟩ _
    exact tags.nodup.map fun s t h => (Link.mk.injEq .. ▸ h).2.1
  · refine i.relationships.increasing.imp ?_
    rintro ⟨name, tags⟩ ⟨name', tags'⟩ hlt l hl hl'
    obtain ⟨_, _, rfl⟩ := List.mem_map.mp hl
    obtain ⟨_, _, h⟩ := List.mem_map.mp hl'
    exact Rank.ne_of_before hlt (Link.mk.injEq .. ▸ h).2.2.symm

end Item

namespace Registry

theorem holds_iff (r : Registry) (l : Link) :
    r.holds l = true ↔ ∃ item, r.get? l.source = some item ∧ l.target ∈ item.relatives l.name := by
  unfold holds
  cases r.get? l.source <;> simp [Item.isRelated]

theorem holds_ensure (r : Registry) (t : String) (l : Link) :
    (r.ensure t).holds l = r.holds l := by
  unfold holds
  rw [get?_ensure]
  by_cases h : l.source = t
  · subst h
    cases r.get? l.source with
    | none => simp [Item.isRelated, Item.relatives, Item.placeholder]
    | some item => simp
  · simp [h]

theorem holds_store (r : Registry) (l l' : Link) :
    (r.store l).holds l' = true ↔ l' = l ∨ r.holds l' = true := by
  rw [← holds_ensure r l.source l', holds_iff, holds_iff]
  unfold store
  rw [get?_addRelative]
  by_cases hs : l'.source = l.source
  · have hsome : (r.ensure l.source).get? l.source =
        some ((r.get? l.source).getD (Item.placeholder l.source)) := by simp [get?_ensure]
    simp only [hs, hsome, if_true, Option.map_some, Option.some.injEq, exists_eq_left',
      Item.mem_relatives_addRelative]
    have heq : l' = l ↔ l'.name = l.name ∧ l'.target = l.target := by
      cases l
      cases l'
      simp_all [and_comm]
    rw [heq]
  · have hne : l' ≠ l := fun e => hs (congrArg Link.source e)
    simp [hs, hne]

theorem holds_storeAll (r : Registry) (ls : List Link) (l : Link) :
    (r.storeAll ls).1.holds l = true ↔ l ∈ ls ∨ r.holds l = true := by
  induction ls generalizing r with
  | nil => simp [storeAll]
  | cons l' ls ih =>
    simp only [storeAll, ih, holds_store, List.mem_cons]
    tauto

@[simp]
theorem unresolved_store (r : Registry) (l : Link) : (r.store l).unresolved = r.unresolved := by
  simp [store]

@[simp]
theorem unresolved_storeAll (r : Registry) (ls : List Link) :
    (r.storeAll ls).1.unresolved = r.unresolved := by
  induction ls generalizing r with
  | nil => rfl
  | cons l ls ih => simp only [storeAll, ih, unresolved_store]

@[simp]
theorem unresolved_foldl_ensure (tags : List String) (r : Registry) :
    (tags.foldl ensure r).unresolved = r.unresolved := by
  induction tags generalizing r with
  | nil => rfl
  | cons t tags ih => rw [List.foldl_cons, ih, unresolved_ensure]

theorem get?_foldl_ensure (tags : List String) (r : Registry) (tag : String) :
    (tags.foldl ensure r).get? tag =
      if tag ∈ tags then some ((r.get? tag).getD (Item.placeholder tag)) else r.get? tag := by
  induction tags generalizing r with
  | nil => simp
  | cons t tags ih =>
    rw [List.foldl_cons, ih, get?_ensure]
    by_cases h : tag = t
    · subst h
      by_cases hm : tag ∈ tags <;> simp [hm]
    · simp [h]

/-- Storing links at registered sources changes nothing but relatives. -/
theorem withoutRelatives_storeAll (r : Registry) (ls : List Link)
    (h : ∀ l ∈ ls, (r.get? l.source).isSome) (tag : String) :
    ((r.storeAll ls).1.get? tag).map Item.withoutRelatives =
      (r.get? tag).map Item.withoutRelatives := by
  have step (r : Registry) (l : Link) (hl : (r.get? l.source).isSome) (tag : String) :
      ((r.store l).get? tag).map Item.withoutRelatives =
        (r.get? tag).map Item.withoutRelatives := by
    obtain ⟨item, hitem⟩ := Option.isSome_iff_exists.mp hl
    unfold store
    rw [get?_addRelative, get?_ensure, get?_ensure]
    by_cases ht : tag = l.source
    · simp [ht, hitem]
    · simp [ht]
  induction ls generalizing r with
  | nil => rfl
  | cons l ls ih =>
    have hl := h l List.mem_cons_self
    simp only [storeAll]
    rw [ih (r.store l), step r l hl]
    intro l' hl'
    have hkept := congrArg Option.isSome (step r l hl l'.source)
    simp only [Option.isSome_map] at hkept
    rw [hkept]
    exact h l' (List.mem_cons_of_mem _ hl')

theorem keyed_put (r : Registry) (item : Item) (h : r.Keyed) : (r.put item).Keyed := by
  intro tag i hi
  rw [get?_put] at hi
  by_cases ht : tag = item.tag
  · rw [if_pos ht] at hi
    rw [ht, Option.some.inj hi]
  · rw [if_neg ht] at hi
    exact h tag i hi

theorem keyed_unresolved (r : Registry) (h : r.Keyed) : r.unresolved.Keyed := by
  intro tag i hi
  rw [get?_unresolved] at hi
  obtain ⟨item, hitem, rfl⟩ := Option.map_eq_some_iff.mp hi
  exact h tag item (Option.filter_eq_some_iff.mp hitem).1

theorem keyed_ensure (r : Registry) (t : String) (h : r.Keyed) : (r.ensure t).Keyed := by
  unfold ensure
  split
  · exact h
  · exact keyed_put r _ h

theorem keyed_foldl_ensure (tags : List String) (r : Registry) (h : r.Keyed) :
    (tags.foldl ensure r).Keyed := by
  induction tags generalizing r with
  | nil => exact h
  | cons t tags ih => exact ih _ (keyed_ensure r t h)

theorem keyed_store (r : Registry) (l : Link) (h : r.Keyed) : (r.store l).Keyed := by
  intro tag i hi
  have hk := keyed_ensure r l.source h
  unfold store at hi
  rw [get?_addRelative] at hi
  by_cases ht : tag = l.source
  · rw [if_pos ht] at hi
    obtain ⟨item, hitem, rfl⟩ := Option.map_eq_some_iff.mp hi
    rw [ht]
    exact hk l.source item hitem
  · rw [if_neg ht] at hi
    exact hk tag i hi

theorem keyed_storeAll (r : Registry) (ls : List Link) (h : r.Keyed) :
    (r.storeAll ls).1.Keyed := by
  induction ls generalizing r with
  | nil => exact h
  | cons l ls ih => exact ih _ (keyed_store r l h)

/-- The stored links: one for each item, relationship name and relative. -/
def links (r : Registry) : List Link := r.all.flatMap Item.links

theorem mem_links (r : Registry) (h : r.Keyed) (l : Link) : l ∈ r.links ↔ r.holds l = true := by
  simp only [links, all, List.mem_flatMap, SortedMap.mem_values, Item.mem_links, holds_iff]
  constructor
  · intro hparts
    obtain ⟨item, ⟨tag, hget⟩, hsource, hmem⟩ := hparts
    refine ⟨item, ?_, hmem⟩
    rw [hsource, h tag item hget]
    exact hget
  · intro hparts
    obtain ⟨item, hget, hmem⟩ := hparts
    exact ⟨item, ⟨l.source, hget⟩, (h l.source item hget).symm, hmem⟩

theorem nodup_links (r : Registry) (h : r.Keyed) : r.links.Nodup := by
  have hitems : r.all.Pairwise fun i j => i.tag ≠ j.tag := by
    rw [all, SortedMap.values, List.pairwise_map]
    refine r.items.increasing.imp_of_mem ?_
    rintro ⟨s, i⟩ ⟨t, j⟩ hi hj hlt
    rw [SortedMap.mem_entries] at hi hj
    rw [h s i hi, h t j hj]
    exact Rank.ne_of_before hlt
  rw [links, List.nodup_flatMap]
  refine ⟨fun i _ => i.nodup_links, hitems.imp ?_⟩
  intro i j hne l hi hj
  rw [Item.mem_links] at hi hj
  exact hne (hi.1.symm.trans hj.1)

theorem length_links_store (r : Registry) (h : r.Keyed) (l : Link) :
    (r.store l).links.length = r.links.length + if r.holds l then 0 else 1 := by
  have hnodup := nodup_links _ (keyed_store r l h)
  cases hl : r.holds l with
  | true =>
    have hperm : (r.store l).links.Perm r.links := by
      refine (List.perm_ext_iff_of_nodup hnodup (nodup_links r h)).mpr ?_
      intro l'
      rw [mem_links _ (keyed_store r l h), mem_links r h, holds_store, or_iff_right_of_imp]
      rintro rfl
      exact hl
    simpa using hperm.length_eq
  | false =>
    have hfresh : l ∉ r.links := by simp [mem_links r h, hl]
    have hperm : (r.store l).links.Perm (l :: r.links) := by
      refine (List.perm_ext_iff_of_nodup hnodup ?_).mpr ?_
      · exact List.nodup_cons.mpr ⟨hfresh, nodup_links r h⟩
      · intro l'
        rw [mem_links _ (keyed_store r l h), holds_store, List.mem_cons, mem_links r h]
    simpa using hperm.length_eq

/-- The count of a pass is the number of links that it adds. -/
theorem length_links_storeAll (r : Registry) (h : r.Keyed) (ls : List Link) :
    (r.storeAll ls).1.links.length = r.links.length + (r.storeAll ls).2 := by
  induction ls generalizing r with
  | nil => rfl
  | cons l ls ih =>
    simp only [storeAll]
    rw [ih _ (keyed_store r l h), length_links_store r h]
    cases r.holds l
    · simp only [Bool.false_eq_true, if_false]
      omega
    · simp

end Registry

end Traceability
