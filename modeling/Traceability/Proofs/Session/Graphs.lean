import Traceability.Proofs.Graph.Walk
import Traceability.Proofs.Session.Arising

/-!
The answers of a session to graph requests. A resolved session has an item for every
relative, so that no walk leaves the registered items.
-/

namespace Traceability.Session

theorem checkRequest_eq_ok_iff (s : Session) (q : Graph.Request) :
    s.checkRequest q = .ok () ↔ (∀ f ∈ q.follow, s.index.contains f.name = true) ∧
      ∀ tag ∈ q.start, s.registry.contains tag = true := by
  unfold checkRequest
  cases hfollow : q.follow.find? fun f => !s.index.contains f.name with
  | some f =>
    have hmem := List.mem_of_find?_eq_some hfollow
    have hunknown := List.find?_some hfollow
    simp only [reduceCtorEq, false_iff, not_and]
    intro hknown
    simp [hknown f hmem] at hunknown
  | none =>
    have hknown : ∀ f ∈ q.follow, s.index.contains f.name = true := by
      simpa using List.find?_eq_none.mp hfollow
    cases htags : q.start.find? fun tag => !s.registry.contains tag with
    | some tag =>
      have hmem := List.mem_of_find?_eq_some htags
      have hunknown := List.find?_some htags
      simp only [reduceCtorEq, false_iff, not_and]
      intro _ hregistered
      simp [hregistered tag hmem] at hunknown
    | none =>
      have hregistered : ∀ tag ∈ q.start, s.registry.contains tag = true := by
        simpa using List.find?_eq_none.mp htags
      simp only [true_iff]
      exact ⟨hknown, hregistered⟩

theorem graph_eq_ok_iff (s : Session) (q : Graph.Request) (g : Graph) :
    s.graph q = .ok g ↔ s.checkRequest q = .ok () ∧ Graph.walk s.registry s.index q = g := by
  unfold graph
  cases s.checkRequest q <;> simp

theorem exists_error_iff (s : Session) (q : Graph.Request) :
    (∃ e, s.graph q = .error e) ↔ (∃ f ∈ q.follow, s.index.contains f.name = false) ∨
      ∃ tag ∈ q.start, s.registry.contains tag = false := by
  have hok := checkRequest_eq_ok_iff s q
  have hnot : (∃ e, s.graph q = .error e) ↔ ¬ s.checkRequest q = .ok () := by
    unfold graph
    cases s.checkRequest q <;> simp
  rw [hnot, hok, not_and_or]
  simp only [not_forall, Bool.not_eq_true, exists_prop]

/-- A graph request fails only if it names something unknown. Otherwise the walk expands
every reachable item once, at its distance, and the nearer ones first; the edges are those of
the links that it reads then, and the graph is exact. Neither the order nor the repetition of
start tags and relationships matters. -/
theorem graph_exact (session : Session) (hsession : session.Arises) (q : Graph.Request) :
    let s := session.resolve.1
    let expansions := Graph.expansions s.registry s.index q
    ((∃ e, s.graph q = .error e) ↔ (∃ f ∈ q.follow, s.index.contains f.name = false) ∨
      ∃ tag ∈ q.start, s.registry.contains tag = false) ∧
    (∀ g, s.graph q = .ok g →
      (Graph.walk s.registry s.index q = g ∧ (expansions.map fun p => p.1.tag).Nodup ∧
        expansions.Pairwise (fun p p' => p.2 ≤ p'.2) ∧
        (∀ item depth, (item, depth) ∈ expansions ↔ s.registry.get? item.tag = some item ∧
          Graph.Reachable s.registry q item.tag ∧
          Graph.distance s.registry q item.tag = depth) ∧
        g.edges = (SortedSet.ofList ((expansions.flatMap fun p =>
          Graph.linksOf q.follow p.2 p.1).map (Graph.edgeOf s.index))).toList) ∧
      Graph.Exact s.registry s.index q g) ∧
    ∀ q' : Graph.Request, (∀ tag, tag ∈ q'.start ↔ tag ∈ q.start) →
      (∀ name, name ∈ q'.follow.map Graph.Follow.name ↔
        name ∈ q.follow.map Graph.Follow.name) →
      (∀ name, Graph.hops name q'.follow = Graph.hops name q.follow) →
      (s.graph q').toOption = (s.graph q).toOption := by
  intro s expansions
  have hkeyed : s.registry.Keyed := hsession.resolve.keyed
  have hcomplete (q : Graph.Request) (hok : s.checkRequest q = .ok ()) :
      Graph.Complete s.registry q :=
    ⟨((checkRequest_eq_ok_iff s q).mp hok).2, hsession.isSome_of_related⟩
  refine ⟨exists_error_iff s q, ?_, ?_⟩
  · intro g hg
    obtain ⟨hok, rfl⟩ := (graph_eq_ok_iff s q g).mp hg
    have h := hcomplete q hok
    exact ⟨⟨rfl, h.nodup_expansions hkeyed s.index, h.ordered_expansions hkeyed s.index,
      h.mem_expansions hkeyed s.index, h.edges_walk hkeyed s.index⟩, h.exact_walk hkeyed s.index⟩
  · intro q' htags hnames hhops
    have hnamed (follow : List Graph.Follow) :
        (∀ f ∈ follow, s.index.contains f.name = true) ↔
          ∀ name ∈ follow.map Graph.Follow.name, s.index.contains name = true :=
      (List.forall_mem_map (P := fun name => s.index.contains name = true)).symm
    have hsame : s.checkRequest q' = .ok () ↔ s.checkRequest q = .ok () := by
      rw [checkRequest_eq_ok_iff, checkRequest_eq_ok_iff, hnamed, hnamed]
      simp only [hnames, htags]
    unfold graph
    cases hcheck : s.checkRequest q with
    | ok =>
      have hexact := ((hcomplete q hcheck).exact_walk hkeyed s.index).of_request htags hhops
      have hexact' := (hcomplete q' (hsame.mpr hcheck)).exact_walk hkeyed s.index
      rw [hsame.mpr hcheck, hexact'.eq_of_exact hexact]
    | error e =>
      have hnot : ¬ s.checkRequest q' = .ok () := by
        rw [hsame, hcheck]
        simp
      cases hcheck' : s.checkRequest q' with
      | ok => exact absurd hcheck' hnot
      | error e' => rfl

/-- A relationship that is requested twice leads around a cycle for the larger limit. -/
theorem graph_exact_of_cycle :
    ∃ start, ofRelationships [.between "parents" "children"] 1 = .ok start ∧
      let s := (start.run [.register "A" (.ofList [("parents", "B")]) ⟨"a.rst", 1⟩,
        .register "B" (.ofList [("parents", "C, D")]) ⟨"a.rst", 2⟩,
        .register "C" (.ofList [("parents", "A")]) ⟨"a.rst", 3⟩]).resolve.1
      ∃ g, s.graph ⟨["A", "A"], [⟨"parents", some 2⟩, ⟨"parents", some 1⟩]⟩ = .ok g ∧
        g.contains "D" = true ∧ ⟨"B", "D", "parents", .forward⟩ ∈ g.edges := by
  have hstart : ofRelationships [.between "parents" "children"] 1 = .ok _ := rfl
  refine ⟨_, hstart, ?_⟩
  intro s
  obtain ⟨hfails, hexact, -⟩ := graph_exact _ ((Arises.opened hstart).run
    [.register "A" (.ofList [("parents", "B")]) ⟨"a.rst", 1⟩,
      .register "B" (.ofList [("parents", "C, D")]) ⟨"a.rst", 2⟩,
      .register "C" (.ofList [("parents", "A")]) ⟨"a.rst", 3⟩])
    ⟨["A", "A"], [⟨"parents", some 2⟩, ⟨"parents", some 1⟩]⟩
  cases hgraph : s.graph ⟨["A", "A"], [⟨"parents", some 2⟩, ⟨"parents", some 1⟩]⟩ with
  | error e =>
    have hunknown := hfails.mp ⟨e, hgraph⟩
    exact absurd hunknown (by decide)
  | ok g =>
    obtain ⟨-, h⟩ := hexact g hgraph
    have hone : ((1 : Nat) : ℕ∞) <
        Graph.hops "parents" [⟨"parents", some 2⟩, ⟨"parents", some 1⟩] :=
      (Graph.lt_hops_iff ..).mpr ⟨⟨"parents", some 2⟩, by decide, rfl, rfl⟩
    have hA : Graph.Leads s.registry
        ⟨["A", "A"], [⟨"parents", some 2⟩, ⟨"parents", some 1⟩]⟩ 0 "A" :=
      Graph.Leads.start (by decide)
    have hB := Graph.Leads.hop hA (lt_trans (by decide) hone) (b := "B") ⟨_, rfl, by decide⟩
    have hD := Graph.Leads.hop hB hone (b := "D") ⟨_, rfl, by decide⟩
    have hdistance := Nat.cast_le (α := ℕ∞).mpr (Graph.distance_le hB)
    refine ⟨g, rfl, ?_, ?_⟩
    · exact (h.contains_iff "D").mpr ((h.mem_tags "D").mpr ⟨2, hD⟩)
    · exact (h.mem_edges _).mpr
        ⟨"B", "parents", "D", ⟨1, hB⟩, hdistance.trans_lt hone, ⟨_, rfl, by decide⟩, rfl⟩

end Traceability.Session
