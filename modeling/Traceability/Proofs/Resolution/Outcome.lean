import Traceability.Proofs.Relationship.Opposites
import Traceability.Proofs.Resolution.Links

/-!
The outcome of a resolution, said of the register before it: which items are there
afterwards, which links they hold and what the counters count. It depends on the
declared items alone, so that a second resolution has the same outcome.
-/

namespace Traceability

namespace Registry

/-- The declaration of the first tag names the second one in the attribute `name`. -/
def Names (r : Registry) (tag name other : String) : Prop :=
  ∃ item, r.get? tag = some item ∧ item.isDeclared = true ∧
    ∃ value, item.attributes.get? name = some value ∧ other ∈ splitTags value

/-- A declaration names the tag in an attribute that is called like a relationship. -/
def Mentions (r : Registry) (index : Relationship.Index) (tag : String) : Prop :=
  ∃ other name, index.contains name = true ∧ r.Names other name tag

/-- The second tag is among the relatives of the first one. -/
def Related (r : Registry) (tag name other : String) : Prop :=
  ∃ item, r.get? tag = some item ∧ other ∈ item.relatives name

theorem get?_unresolved_eq_some_iff (r : Registry) (tag : String) (item : Item) :
    r.unresolved.get? tag = some item ↔
      ∃ i, r.get? tag = some i ∧ i.isDeclared = true ∧ i.withoutRelatives = item := by
  rw [get?_unresolved, Option.map_eq_some_iff]
  simp only [Option.filter_eq_some_iff, and_assoc]

theorem names_unresolved (r : Registry) (tag name other : String) :
    r.unresolved.Names tag name other ↔ r.Names tag name other := by
  unfold Names
  simp only [get?_unresolved_eq_some_iff]
  constructor
  · intro hparts
    obtain ⟨_, ⟨item, hget, hdeclared, rfl⟩, -, hvalue⟩ := hparts
    exact ⟨item, hget, hdeclared, hvalue⟩
  · intro hparts
    obtain ⟨item, hget, hdeclared, hvalue⟩ := hparts
    exact ⟨_, ⟨item, hget, hdeclared, rfl⟩, hdeclared, hvalue⟩

theorem declares_unresolved (r : Registry) (tag : String) :
    r.unresolved.declares tag = r.declares tag := by
  rw [declares_eq, declares_eq, holder?_unresolved]

theorem isSome_get?_unresolved (r : Registry) (tag : String) :
    (r.unresolved.get? tag).isSome = r.declares tag := by
  rw [get?_unresolved, declares]
  cases r.get? tag with
  | none => rfl
  | some item => cases h : item.isDeclared <;> simp [Option.filter, h]

theorem get?_unresolved_of_declares (r : Registry) (tag : String) (h : r.declares tag = true) :
    r.unresolved.get? tag = (r.get? tag).map Item.withoutRelatives := by
  unfold declares at h
  rw [get?_unresolved]
  cases hg : r.get? tag with
  | none => rfl
  | some item =>
    rw [hg] at h
    simp [Option.filter, h]

theorem size_unresolved (r : Registry) :
    r.unresolved.size = (r.all.filter Item.isDeclared).length := by
  simp only [unresolved, size, SortedMap.size, SortedMap.map, SortedMap.filter, all,
    SortedMap.values, List.length_map, List.filter_map]
  rfl

theorem holds_unresolved (r : Registry) (l : Link) : r.unresolved.holds l = false := by
  rw [Bool.eq_false_iff]
  intro hl
  obtain ⟨item, hget, hmem⟩ := (holds_iff ..).mp hl
  obtain ⟨i, -, -, rfl⟩ := (get?_unresolved_eq_some_iff ..).mp hget
  exact List.not_mem_nil hmem

theorem holds_foldl_ensure (tags : List String) (r : Registry) (l : Link) :
    (tags.foldl ensure r).holds l = r.holds l := by
  induction tags generalizing r with
  | nil => rfl
  | cons t tags ih => rw [List.foldl_cons, ih, holds_ensure]

end Registry

namespace Mention

theorem mem_ends (r : Relationship) (outgoing incoming : String) :
    (outgoing, incoming) ∈ ends r ↔ r.Pairs outgoing incoming := by
  unfold ends Relationship.Pairs
  split
  · rename_i h
    simp [h]
  · simp

theorem mem_ofItem (r : Relationship) (item : Item) (m : Mention) :
    m ∈ ofItem r item ↔ m.referrer = item ∧ r.Pairs m.outgoing m.incoming ∧
      ∃ value, item.attributes.get? m.outgoing = some value ∧ m.tag ∈ splitTags value := by
  obtain ⟨referrer, tag, outgoing, incoming⟩ := m
  simp only [ofItem, List.mem_flatMap, Prod.exists, mem_ends]
  constructor
  · intro hparts
    obtain ⟨o, i, hpairs, hmem⟩ := hparts
    cases hget : item.attributes.get? o with
    | none => simp [hget] at hmem
    | some value =>
      simp only [hget, List.mem_map, Mention.mk.injEq] at hmem
      obtain ⟨_, hmem, rfl, rfl, rfl, rfl⟩ := hmem
      exact ⟨rfl, hpairs, value, hget, hmem⟩
  · intro hparts
    obtain ⟨rfl, hpairs, value, hget, hmem⟩ := hparts
    refine ⟨outgoing, incoming, hpairs, ?_⟩
    simp [hget, hmem]

/-- The mentions are read from the declared items under the names of the index. -/
theorem mem_inRegistry {index : Relationship.Index} (hindex : index.Exact) (r : Registry)
    (hr : r.Keyed) (m : Mention) :
    m ∈ inRegistry index r ↔
      index.opposite? m.outgoing = some m.incoming ∧
      r.get? m.referrer.tag = some m.referrer ∧ m.referrer.isDeclared = true ∧
      ∃ value, m.referrer.attributes.get? m.outgoing = some value ∧
        m.tag ∈ splitTags value := by
  simp only [inRegistry, List.mem_flatMap, List.mem_filter, mem_ofItem, Registry.all,
    SortedMap.mem_values]
  rw [hindex]
  constructor
  · intro hparts
    obtain ⟨r', hr', item, ⟨⟨tag, hget⟩, hdeclared⟩, rfl, hpairs, hvalue⟩ := hparts
    refine ⟨⟨r', hr', hpairs⟩, ?_, hdeclared, hvalue⟩
    rw [hr tag _ hget]
    exact hget
  · intro hparts
    obtain ⟨⟨r', hr', hpairs⟩, hget, hdeclared, hvalue⟩ := hparts
    exact ⟨r', hr', m.referrer, ⟨⟨_, hget⟩, hdeclared⟩, rfl, hpairs, hvalue⟩

theorem exists_mem_inRegistry {index : Relationship.Index} (hindex : index.Exact) (r : Registry)
    (hr : r.Keyed) (source name target : String) :
    (∃ m ∈ inRegistry index r, m.referrer.tag = source ∧ m.outgoing = name ∧ m.tag = target) ↔
      index.contains name = true ∧ r.Names source name target := by
  simp only [mem_inRegistry hindex r hr, Relationship.Index.opposite?_eq_some_iff]
  constructor
  · intro hparts
    obtain ⟨m, ⟨⟨hname, -⟩, hget, hdeclared, hvalue⟩, rfl, rfl, rfl⟩ := hparts
    exact ⟨hname, m.referrer, hget, hdeclared, hvalue⟩
  · intro hparts
    obtain ⟨hname, item, hget, hdeclared, hvalue⟩ := hparts
    have htag := hr source item hget
    refine ⟨⟨item, target, name, index.opposite name⟩, ⟨⟨hname, rfl⟩, ?_, hdeclared, hvalue⟩,
      htag, rfl, rfl⟩
    rw [htag]
    exact hget

/-- Read from the other end, a name belongs to a mention under its opposite. -/
theorem exists_mem_inRegistry_incoming {index : Relationship.Index} (hindex : index.Exact)
    (r : Registry) (hr : r.Keyed) (source name target : String) :
    (∃ m ∈ inRegistry index r, m.referrer.tag = target ∧ m.incoming = name ∧ m.tag = source) ↔
      index.contains name = true ∧ r.Names target (index.opposite name) source := by
  have hout := exists_mem_inRegistry hindex r hr target (index.opposite name) source
  constructor
  · intro hparts
    obtain ⟨m, hm, htarget, rfl, hsource⟩ := hparts
    have hopposite := ((mem_inRegistry hindex r hr m).mp hm).1
    rw [Relationship.Index.opposite?_comm hindex,
      Relationship.Index.opposite?_eq_some_iff] at hopposite
    exact ⟨hopposite.1, (hout.mp ⟨m, hm, htarget, hopposite.2.symm, hsource⟩).2⟩
  · intro hparts
    obtain ⟨hname, hnames⟩ := hparts
    have hback := Relationship.Index.opposite_opposite hindex name hname
    obtain ⟨m, hm, htarget, hm_out, hsource⟩ := hout.mpr ⟨hback.1, hnames⟩
    have hopposite := ((mem_inRegistry hindex r hr m).mp hm).1
    rw [hm_out, Relationship.Index.opposite?_eq_some_iff, hback.2] at hopposite
    exact ⟨m, hm, htarget, hopposite.2.symm, hsource⟩

end Mention

namespace Resolution

variable (index : Relationship.Index) (r : Registry)

def mentions : List Mention := Mention.inRegistry index r.unresolved

def danglingTags : List String :=
  ((mentions index r).filter fun m => !r.unresolved.declares m.tag).map Mention.tag

/-- The declared items and the placeholders, before links are stored. -/
def complete : Registry := (danglingTags index r).foldl Registry.ensure r.unresolved

def links : List Link := (mentions index r).flatMap Mention.links

theorem registry_ofRegistry :
    (ofRegistry index r).registry = ((complete index r).storeAll (links index r)).1 := rfl

@[simp]
theorem unresolved_ofRegistry : (ofRegistry index r).registry.unresolved = r.unresolved := by
  rw [registry_ofRegistry, Registry.unresolved_storeAll, complete,
    Registry.unresolved_foldl_ensure, Registry.unresolved_unresolved]

theorem ofRegistry_empty : ofRegistry index .empty = ⟨.empty, [], ⟨0, 0, 0⟩⟩ := by
  have hmentions : Mention.inRegistry index Registry.empty.unresolved = [] := by
    rw [Mention.inRegistry, List.flatMap_eq_nil_iff]
    intro r _
    rfl
  simp only [ofRegistry, hmentions]
  rfl

/-- A resolution reads the declared items only. -/
theorem ofRegistry_congr {r r' : Registry} (h : r.unresolved = r'.unresolved) :
    ofRegistry index r = ofRegistry index r' := by
  unfold ofRegistry
  rw [h]

theorem ofRegistry_ofRegistry :
    ofRegistry index (ofRegistry index r).registry = ofRegistry index r :=
  ofRegistry_congr index (unresolved_ofRegistry index r)

theorem shadowed_ofRegistry : (ofRegistry index r).registry.shadowed = r.shadowed := by
  rw [← Registry.shadowed_unresolved, unresolved_ofRegistry, Registry.shadowed_unresolved]

theorem holder?_ofRegistry (tag : String) :
    (ofRegistry index r).registry.holder? tag = r.holder? tag := by
  rw [← Registry.holder?_unresolved, unresolved_ofRegistry, Registry.holder?_unresolved]

theorem holds_complete (l : Link) : (complete index r).holds l = false := by
  rw [complete, Registry.holds_foldl_ensure, Registry.holds_unresolved]

theorem holds_ofRegistry (l : Link) :
    (ofRegistry index r).registry.holds l = true ↔ l ∈ links index r := by
  rw [registry_ofRegistry, Registry.holds_storeAll, holds_complete]
  simp

theorem keyed_complete (hr : r.Keyed) : (complete index r).Keyed :=
  Registry.keyed_foldl_ensure _ _ (Registry.keyed_unresolved r hr)

theorem keyed_ofRegistry (hr : r.Keyed) : (ofRegistry index r).registry.Keyed :=
  Registry.keyed_storeAll _ _ (keyed_complete index r hr)

/-- Each link is counted once, when it is stored first. -/
theorem links_ofRegistry (hr : r.Keyed) :
    (ofRegistry index r).summary.links = (ofRegistry index r).registry.links.length := by
  have hkeyed := keyed_complete index r hr
  have hnone : (complete index r).links = [] := by
    rw [List.eq_nil_iff_forall_not_mem]
    intro l
    rw [Registry.mem_links _ hkeyed, holds_complete]
    exact Bool.false_ne_true
  have h := Registry.length_links_storeAll _ hkeyed (links index r)
  rw [hnone, List.length_nil, Nat.zero_add] at h
  exact h.symm

theorem declared_ofRegistry :
    (ofRegistry index r).summary.declared =
      ((ofRegistry index r).registry.all.filter Item.isDeclared).length := by
  rw [← Registry.size_unresolved, unresolved_ofRegistry]
  rfl

section Exact

variable {index r} (hindex : index.Exact) (hr : r.Keyed)
include hindex hr

theorem mem_links (l : Link) :
    l ∈ links index r ↔ index.contains l.name = true ∧
      (r.Names l.source l.name l.target ∨ r.Names l.target (index.opposite l.name) l.source) := by
  have hkeyed := Registry.keyed_unresolved r hr
  have hout := Mention.exists_mem_inRegistry hindex r.unresolved hkeyed l.source l.name l.target
  have hin :=
    Mention.exists_mem_inRegistry_incoming hindex r.unresolved hkeyed l.source l.name l.target
  rw [Registry.names_unresolved] at hout hin
  rw [and_or_left, ← hout, ← hin]
  obtain ⟨source, target, name⟩ := l
  simp only [links, mentions, List.mem_flatMap, Mention.links, List.mem_cons, List.not_mem_nil,
    or_false, Link.mk.injEq]
  constructor
  · intro hparts
    obtain ⟨m, hm, ⟨rfl, rfl, rfl⟩ | ⟨rfl, rfl, rfl⟩⟩ := hparts
    · exact Or.inl ⟨m, hm, rfl, rfl, rfl⟩
    · exact Or.inr ⟨m, hm, rfl, rfl, rfl⟩
  · intro hcases
    rcases hcases with ⟨m, hm, rfl, rfl, rfl⟩ | ⟨m, hm, rfl, rfl, rfl⟩
    · exact ⟨m, hm, Or.inl ⟨rfl, rfl, rfl⟩⟩
    · exact ⟨m, hm, Or.inr ⟨rfl, rfl, rfl⟩⟩

theorem mem_danglingTags (tag : String) :
    tag ∈ danglingTags index r ↔ r.declares tag = false ∧ r.Mentions index tag := by
  have hout := Mention.exists_mem_inRegistry hindex r.unresolved (Registry.keyed_unresolved r hr)
  simp only [Registry.names_unresolved] at hout
  simp only [danglingTags, mentions, Registry.declares_unresolved, List.mem_map, List.mem_filter,
    Bool.not_eq_true', Registry.Mentions, ← hout]
  constructor
  · intro hparts
    obtain ⟨m, ⟨hm, hdeclares⟩, rfl⟩ := hparts
    exact ⟨hdeclares, m.referrer.tag, m.outgoing, m, hm, rfl, rfl, rfl⟩
  · intro hparts
    obtain ⟨hdeclares, _, _, m, hm, -, -, rfl⟩ := hparts
    exact ⟨m, ⟨hm, hdeclares⟩, rfl⟩

theorem get?_complete (tag : String) :
    (complete index r).get? tag =
      if tag ∈ danglingTags index r then some (Item.placeholder tag)
      else r.unresolved.get? tag := by
  rw [complete, Registry.get?_foldl_ensure]
  by_cases h : tag ∈ danglingTags index r
  · have hdeclares := ((mem_danglingTags hindex hr tag).mp h).1
    rw [← Registry.isSome_get?_unresolved, Option.isSome_eq_false_iff,
      Option.isNone_iff_eq_none] at hdeclares
    simp [h, hdeclares]
  · simp [h]

/-- A link leads from a declared item or from a placeholder. -/
theorem isSome_source (l : Link) (hl : l ∈ links index r) :
    ((complete index r).get? l.source).isSome = true := by
  rw [get?_complete hindex hr]
  by_cases hdangling : l.source ∈ danglingTags index r
  · simp [hdangling]
  · rw [if_neg hdangling, Registry.isSome_get?_unresolved]
    rw [mem_danglingTags hindex hr, not_and'] at hdangling
    obtain ⟨hname, hnames | hnames⟩ := (mem_links hindex hr l).mp hl
    · obtain ⟨item, hget, hdeclared, -⟩ := hnames
      simp only [Registry.declares, hget, hdeclared]
    · have hback := Relationship.Index.opposite_opposite hindex l.name hname
      simpa using hdangling ⟨l.target, _, hback.1, hnames⟩

theorem withoutRelatives_ofRegistry (tag : String) :
    ((ofRegistry index r).registry.get? tag).map Item.withoutRelatives =
      ((complete index r).get? tag).map Item.withoutRelatives :=
  Registry.withoutRelatives_storeAll _ _ (isSome_source hindex hr) tag

theorem size_ofRegistry :
    (ofRegistry index r).registry.size = (complete index r).size := by
  unfold Registry.size
  rw [SortedMap.size_eq_length_keys, SortedMap.size_eq_length_keys]
  refine congrArg List.length (SortedMap.keys_congr fun tag => ?_)
  have h := congrArg Option.isSome (withoutRelatives_ofRegistry hindex hr tag)
  simp only [Option.isSome_map] at h
  exact h

/-- What is not declared after a resolution is a placeholder that it made. -/
theorem placeholders_ofRegistry :
    (ofRegistry index r).summary.placeholders =
      ((ofRegistry index r).registry.all.filter fun item => !item.isDeclared).length := by
  have hsize : (ofRegistry index r).registry.all.length = (complete index r).size := by
    rw [← size_ofRegistry hindex hr]
    exact List.length_map ..
  have hparts :=
    List.length_eq_length_filter_add (l := (ofRegistry index r).registry.all) Item.isDeclared
  rw [← declared_ofRegistry, hsize] at hparts
  have hdef : (ofRegistry index r).summary.placeholders =
      (complete index r).size - (ofRegistry index r).summary.declared := rfl
  omega

end Exact

end Resolution

end Traceability
