import Traceability.Proofs.Graph.Exploration
import Traceability.Proofs.Sorted.Search

/-!
The graph of a walk: the tags at the ends of paths, each with its item, and the edges of
the links that may still be followed at the distance of their source. The graph depends on
the request only through its start tags and its limits.
-/

namespace Traceability.Graph

variable {r : Registry} {q : Request}

/-- The graph of a request: the items at the ends of its paths by tag, and an edge for
every link that may still be followed where the shortest path to its source ends. -/
structure Exact (r : Registry) (index : Relationship.Index) (q : Request) (g : Graph) :
    Prop where
  mem_tags : ∀ tag, tag ∈ g.traceables.map Item.tag ↔ Reachable r q tag
  registered : ∀ item ∈ g.traceables, r.get? item.tag = some item
  increasing_tags : g.traceables.Pairwise fun i j => Rank.before i.tag j.tag = true
  mem_edges : ∀ e, e ∈ g.edges ↔ ∃ v name w, Reachable r q v ∧
    (distance r q v : ℕ∞) < hops name q.follow ∧ r.Related v name w ∧
    edgeOf index ⟨v, w, name⟩ = e
  increasing_edges : g.edges.Pairwise fun e f => Rank.before e f = true
  ends : ∀ e ∈ g.edges, e.source ∈ g.traceables.map Item.tag ∧
    e.target ∈ g.traceables.map Item.tag
  contains_iff : ∀ tag, g.contains tag = true ↔ tag ∈ g.traceables.map Item.tag

namespace Exact

variable {index : Relationship.Index} {g g' : Graph}

theorem traceables_eq (h : Exact r index q g) :
    g.traceables = (g.traceables.map Item.tag).filterMap r.get? := by
  rw [List.filterMap_map]
  refine (List.filterMap_some.symm).trans (List.filterMap_congr fun item hitem => ?_)
  exact (h.registered item hitem).symm

/-- A request has one exact graph. -/
theorem eq_of_exact (h : Exact r index q g) (h' : Exact r index q g') : g = g' := by
  have htags : g.traceables.map Item.tag = g'.traceables.map Item.tag := by
    refine Rank.eq_of_mem_iff (List.pairwise_map.mpr h.increasing_tags)
      (List.pairwise_map.mpr h'.increasing_tags) fun tag => ?_
    rw [h.mem_tags, h'.mem_tags]
  have htraceables : g.traceables = g'.traceables := by
    rw [h.traceables_eq, h'.traceables_eq, htags]
  have hedges : g.edges = g'.edges := by
    refine Rank.eq_of_mem_iff h.increasing_edges h'.increasing_edges fun e => ?_
    rw [h.mem_edges, h'.mem_edges]
  exact congrArg₂ Graph.mk htraceables hedges

/-- Requests with the same start tags and the same limits have the same exact graphs. -/
theorem of_request {q' : Request} (h : Exact r index q g)
    (hstart : ∀ tag, tag ∈ q'.start ↔ tag ∈ q.start)
    (hhops : ∀ name, hops name q'.follow = hops name q.follow) : Exact r index q' g where
  mem_tags tag := by rw [h.mem_tags, reachable_congr hstart hhops]
  registered := h.registered
  increasing_tags := h.increasing_tags
  mem_edges e := by
    rw [h.mem_edges]
    simp only [reachable_congr hstart hhops, distance_congr hstart hhops, hhops]
  increasing_edges := h.increasing_edges
  ends := h.ends
  contains_iff := h.contains_iff

end Exact

/-- An edge has the ends of its link, in one order or the other. -/
theorem ends_edgeOf (index : Relationship.Index) (l : Link) :
    (edgeOf index l).source = l.source ∧ (edgeOf index l).target = l.target ∨
      (edgeOf index l).source = l.target ∧ (edgeOf index l).target = l.source := by
  unfold edgeOf Edge.ofLink
  split
  · exact Or.inr ⟨rfl, rfl⟩
  · split
    · exact Or.inr ⟨rfl, rfl⟩
    · exact Or.inl ⟨rfl, rfl⟩
  · exact Or.inl ⟨rfl, rfl⟩

/-- The items that a walk expands, in order, each with the number of hops to it. -/
def expansions (r : Registry) (index : Relationship.Index) (q : Request) : List (Item × Nat) :=
  (Search.start r q.start).expansions r index q.follow

/-- Registered tags lead to items of these tags. -/
theorem map_tag_filterMap (hkeyed : r.Keyed) (tags : List String)
    (htags : ∀ tag ∈ tags, (r.get? tag).isSome = true) :
    (tags.filterMap r.get?).map Item.tag = tags := by
  induction tags with
  | nil => rfl
  | cons tag tags ih =>
    obtain ⟨item, hitem⟩ := Option.isSome_iff_exists.mp (htags tag List.mem_cons_self)
    rw [List.filterMap_cons_some hitem, List.map_cons, hkeyed tag item hitem,
      ih fun t ht => htags t (List.mem_cons_of_mem _ ht)]

section Walk

variable (h : Complete r q) (hkeyed : r.Keyed) (index : Relationship.Index)
include h hkeyed

theorem Complete.exists_explored : ∃ depth,
    Search.Explored r index q (expansions r index q)
        ((expansions r index q).flatMap fun p => linksOf q.follow p.2 p.1) depth
        ((Search.start r q.start).explore r index q.follow) ∧
      ((Search.start r q.start).explore r index q.follow).queue = [] :=
  (Search.Explored.of_started (Search.started_start hkeyed h fun _ htag => htag)).explore hkeyed h

theorem Complete.nodup_expansions :
    ((expansions r index q).map fun p => p.1.tag).Nodup := by
  obtain ⟨depth, hexplored, hend⟩ := h.exists_explored hkeyed index
  have hnodup := hexplored.recorded.nodup
  rwa [hend, List.append_nil] at hnodup

theorem Complete.ordered_expansions :
    (expansions r index q).Pairwise fun p p' => p.2 ≤ p'.2 := by
  obtain ⟨depth, hexplored, hend⟩ := h.exists_explored hkeyed index
  have hordered := hexplored.recorded.ordered
  rwa [hend, List.append_nil] at hordered

theorem Complete.mem_expansions (item : Item) (d : Nat) :
    (item, d) ∈ expansions r index q ↔ r.get? item.tag = some item ∧
      Reachable r q item.tag ∧ distance r q item.tag = d := by
  obtain ⟨depth, hexplored, hend⟩ := h.exists_explored hkeyed index
  exact hexplored.mem_done_iff hend item d

theorem Complete.edges_walk : (walk r index q).edges = (SortedSet.ofList
    (((expansions r index q).flatMap fun p => linksOf q.follow p.2 p.1).map
      (edgeOf index))).toList := by
  obtain ⟨depth, hexplored, -⟩ := h.exists_explored hkeyed index
  refine congrArg SortedSet.toList (SortedSet.ext_mem fun e => ?_)
  rw [hexplored.mem_edges, SortedSet.mem_ofList, List.mem_map]

/-- The traceables are the items of the tags that were reached. -/
theorem Complete.tags_walk : (walk r index q).traceables.map Item.tag =
    ((Search.start r q.start).explore r index q.follow).depths.keys := by
  obtain ⟨depth, hexplored, hend⟩ := h.exists_explored hkeyed index
  refine map_tag_filterMap hkeyed _ fun tag htag => ?_
  rw [hexplored.mem_keys_iff hend] at htag
  exact h.isSome_of_reachable htag

theorem Complete.mem_tags (tag : String) :
    tag ∈ (walk r index q).traceables.map Item.tag ↔ Reachable r q tag := by
  obtain ⟨depth, hexplored, hend⟩ := h.exists_explored hkeyed index
  rw [h.tags_walk hkeyed, hexplored.mem_keys_iff hend]

theorem Complete.mem_edges (e : Edge) :
    e ∈ (walk r index q).edges ↔ ∃ v name w, Reachable r q v ∧
      (distance r q v : ℕ∞) < hops name q.follow ∧ r.Related v name w ∧
      edgeOf index ⟨v, w, name⟩ = e := by
  obtain ⟨depth, hexplored, hend⟩ := h.exists_explored hkeyed index
  exact hexplored.mem_edges_iff hend hkeyed e

theorem Complete.reachable_ends (e : Edge)
    (he : e ∈ (walk r index q).edges) : Reachable r q e.source ∧ Reachable r q e.target := by
  obtain ⟨v, name, w, hv, hn, hrelated, rfl⟩ := (h.mem_edges hkeyed index e).mp he
  have hw : Reachable r q w := ⟨_, Leads.hop hv.leads_distance hn hrelated⟩
  rcases ends_edgeOf index ⟨v, w, name⟩ with ⟨hsource, htarget⟩ | ⟨hsource, htarget⟩
  · rw [hsource, htarget]
    exact ⟨hv, hw⟩
  · rw [hsource, htarget]
    exact ⟨hw, hv⟩

theorem Complete.exact_walk : Exact r index q (walk r index q) := by
  have hmem := h.mem_tags hkeyed index
  have hincreasing : ((walk r index q).traceables.map Item.tag).Pairwise
      fun a b => Rank.before a b = true := by
    rw [h.tags_walk hkeyed]
    exact SortedMap.increasing_keys _
  refine ⟨hmem, ?_, List.pairwise_map.mp hincreasing, h.mem_edges hkeyed index,
    SortedSet.increasing _, ?_, Rank.isOk_search_iff hincreasing⟩
  · intro item hitem
    obtain ⟨tag, -, hget⟩ := List.mem_filterMap.mp hitem
    rwa [hkeyed tag item hget]
  · intro e he
    rw [hmem, hmem]
    exact h.reachable_ends hkeyed index e he

end Walk

end Traceability.Graph
