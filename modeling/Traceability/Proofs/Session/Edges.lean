import Traceability.Proofs.Graph.Edges
import Traceability.Proofs.Session.Graphs

/-!
The edges in the graphs of a resolved session are links, and a link has one edge, from
whichever of its ends the walk came to it.
-/

namespace Traceability.Session

theorem Arises.directed_index {s : Session} (h : Arises s) : s.index.Directed := by
  obtain ⟨types, htypes⟩ := h.exists_types
  exact Relationship.Index.directed_ofList htypes

theorem contains_of_related {s : Session} (h : s.Arises) {a name b : String}
    (hrelated : s.resolve.1.registry.Related a name b) : s.index.contains name = true :=
  ((Resolution.related_ofRegistry_iff h.exact_index h.keyed a name b).mp hrelated).1

theorem complete_of_graph {s : Session} (h : s.Arises) {q : Graph.Request} {g : Graph}
    (hg : s.resolve.1.graph q = .ok g) : Graph.Complete s.resolve.1.registry q := by
  have hcheck := ((graph_eq_ok_iff _ q g).mp hg).1
  exact ⟨((checkRequest_eq_ok_iff _ q).mp hcheck).2, h.isSome_of_related⟩

/-- The edges of a graph are written from related items. -/
theorem exists_related_of_mem_edges {s : Session} (h : s.Arises) {q : Graph.Request} {g : Graph}
    (hg : s.resolve.1.graph q = .ok g) {e : Graph.Edge} (he : e ∈ g.edges) :
    ∃ l : Link, s.resolve.1.registry.Related l.source l.name l.target ∧
      Graph.edgeOf s.index l = e := by
  have hcomplete := complete_of_graph h hg
  obtain ⟨-, rfl⟩ := (graph_eq_ok_iff _ q g).mp hg
  obtain ⟨v, name, w, -, -, hrelated, hedge⟩ := (hcomplete.mem_edges h.resolve.keyed _ e).mp he
  exact ⟨⟨v, w, name⟩, hrelated, hedge⟩

theorem related_edge {s : Session} (h : s.Arises) {l : Link}
    (hrelated : s.resolve.1.registry.Related l.source l.name l.target) :
    let e := Graph.edgeOf s.index l
    s.resolve.1.registry.Related e.source e.relationship e.target := by
  intro e
  have hname := contains_of_related h hrelated
  have hlink : e.link = l ∨ e.link = ⟨l.target, l.source, s.index.opposite l.name⟩ :=
    Graph.link_edgeOf h.directed_index hname
  obtain ⟨source, target, relationship, direction⟩ := e
  rcases hlink with hlink | hlink
  · cases hlink
    exact hrelated
  · cases hlink
    exact (Resolution.related_ofRegistry_comm h.exact_index h.keyed ..).mp hrelated

/-- Every edge is a link in the direction of its name, never backward, and from the lower
tag where the name is symmetric. Both readings of a link have the same edge, so that no two
edges of a graph are one link. -/
theorem edges_are_links (session : Session) (hsession : session.Arises) :
    let s := session.resolve.1
    (∀ q g, s.graph q = .ok g → ∀ e ∈ g.edges,
      s.registry.Related e.source e.relationship e.target ∧
        s.index.direction? e.relationship = some e.direction ∧ e.direction ≠ .backward ∧
        (e.direction = .symmetric → Rank.before e.target e.source = false)) ∧
    (∀ a b name, s.index.contains name = true →
      Graph.edgeOf s.index ⟨b, a, s.index.opposite name⟩ = Graph.edgeOf s.index ⟨a, b, name⟩) ∧
    ∀ q g, s.graph q = .ok g → ∀ e ∈ g.edges, ∀ f ∈ g.edges,
      (f.source = e.source ∧ f.target = e.target ∧ f.relationship = e.relationship ∨
        f.source = e.target ∧ f.target = e.source ∧
          f.relationship = s.index.opposite e.relationship) → f = e := by
  intro s
  have hindex : s.index.Exact := hsession.exact_index
  have hdirected : s.index.Directed := hsession.directed_index
  have hnormal (q : Graph.Request) (g : Graph) (hg : s.graph q = .ok g) (e : Graph.Edge)
      (he : e ∈ g.edges) : Graph.Normal s.index e ∧
        s.registry.Related e.source e.relationship e.target := by
    obtain ⟨l, hrelated, rfl⟩ := exists_related_of_mem_edges hsession hg he
    exact ⟨Graph.normal_edgeOf hdirected (contains_of_related hsession hrelated),
      related_edge hsession hrelated⟩
  refine ⟨?_, fun a b name hname => Graph.edgeOf_opposite hdirected hindex a b hname, ?_⟩
  · intro q g hg e he
    obtain ⟨hnormal, hrelated⟩ := hnormal q g hg e he
    exact ⟨hrelated, hnormal.direction, hnormal.ne_backward, hnormal.ordered⟩
  · intro q g hg e he f hf hends
    obtain ⟨hnormal_e, hrelated⟩ := hnormal q g hg e he
    obtain ⟨hnormal_f, -⟩ := hnormal q g hg f hf
    rcases hends with ⟨hsource, htarget, hname⟩ | ⟨hsource, htarget, hname⟩
    · have hlink : f.link = e.link := by rw [Graph.Edge.link, hsource, htarget, hname]; rfl
      rw [← hnormal_f.edgeOf_link, hlink, hnormal_e.edgeOf_link]
    · refine hnormal_e.eq_of_opposite hdirected hindex hnormal_f
        (contains_of_related hsession hrelated) ?_
      rw [Graph.Edge.link, hsource, htarget, hname]

/-- Where a pair of names is declared a second time the other way round, the second
declaration says which name is the forward one, and a link has its edge under that name
alone although the walk reads it from both ends. -/
theorem edges_are_links_of_reversal :
    ∃ start, ofRelationships [.between "parents" "children", .between "children" "parents"] 1 =
        .ok start ∧
      let s := (start.run [.register "A" (.ofList [("parents", "B")]) ⟨"a.rst", 1⟩]).resolve.1
      ∃ g, s.graph ⟨["A", "B"], [⟨"parents", none⟩, ⟨"children", none⟩]⟩ = .ok g ∧
        ⟨"B", "A", "children", .forward⟩ ∈ g.edges ∧
        ∀ direction, ⟨"A", "B", "parents", direction⟩ ∉ g.edges := by
  have hstart : ofRelationships
      [.between "parents" "children", .between "children" "parents"] 1 = .ok _ := rfl
  refine ⟨_, hstart, ?_⟩
  intro s
  let q : Graph.Request := ⟨["A", "B"], [⟨"parents", none⟩, ⟨"children", none⟩]⟩
  have harises := (Arises.opened hstart).run
    [.register "A" (.ofList [("parents", "B")]) ⟨"a.rst", 1⟩]
  have hg : s.graph q = .ok (Graph.walk s.registry s.index q) :=
    (graph_eq_ok_iff s q _).mpr ⟨rfl, rfl⟩
  obtain ⟨hedges, -, -⟩ := edges_are_links _ harises
  refine ⟨_, hg, ?_, fun direction hmem => ?_⟩
  · have hfollowed : (Graph.distance s.registry q "A" : ℕ∞) < Graph.hops "parents" q.follow :=
      (Graph.lt_hops_iff ..).mpr ⟨⟨"parents", none⟩, by decide, rfl, rfl⟩
    exact ((complete_of_graph harises hg).mem_edges harises.resolve.keyed s.index _).mpr
      ⟨"A", "parents", "B", ⟨0, Graph.Leads.start (by decide)⟩, hfollowed, ⟨_, rfl, by decide⟩,
        rfl⟩
  · obtain ⟨-, hdirection, hbackward, -⟩ := hedges q _ hg _ hmem
    have hparents : s.index.direction? "parents" = some .backward := rfl
    rw [hparents, Option.some.injEq] at hdirection
    exact hbackward hdirection.symm

end Traceability.Session
