import Traceability.Proofs.Filter.Recency
import Traceability.Proofs.Session.Filters

/-!
What a session answers does not depend on the filters that it keeps. Two sessions that
agree in all but their caches answer an operation alike, and agree again after it. So the
capacity of the cache shows in no answer, however the cache is used.
-/

namespace Traceability

namespace Filter.Cache

theorem faithful_after {c : Cache} (h : c.Faithful) (call : Call) : (c.after call).Faithful := by
  cases call with
  | clear =>
    intro text e hmem
    exact absurd hmem List.not_mem_nil
  | request text => exact faithful_request h text

theorem faithful_run {c : Cache} (h : c.Faithful) (calls : List Call) :
    (c.run calls).Faithful := by
  induction calls generalizing c with
  | nil => exact h
  | cons call calls ih => exact ih (faithful_after h call)

end Filter.Cache

namespace Session

/-- What a session can be told and asked. -/
inductive Operation where
  | register (tag : String) (attributes : Attributes) (origin : Origin)
  | resolve
  | forget (document : String)
  | purge (document : String)
  | filter (text : String)
  | item (tag : String)
  | matrix (request : Matrix.Request)
  | pages (request : Matrix.Request)
  | graph (request : Graph.Request)
  | registry
  | relationships
  | diagnostics

inductive Answer where
  | registered (outcome : Except Error Unit)
  | resolved (summary : Resolution.Summary)
  | withdrawn (tags : List String)
  | items (found : Except Error (List Item))
  | item (found : Except Error Item)
  | matrix (found : Except Error Matrix)
  | pages (found : Except Error (List Matrix))
  | graph (found : Except Error Graph)
  | registry (registry : Registry)
  | relationships (index : Relationship.Index)
  | diagnostics (diagnostics : Diagnostics)

/-- The session after an operation, and the answer. -/
def respond (s : Session) : Operation → Session × Answer
  | .register tag attributes origin => (s.register tag attributes origin).map id .registered
  | .resolve => s.resolve.map id .resolved
  | .forget document => (s.forget document).map id .withdrawn
  | .purge document => (s.purge document).map id .withdrawn
  | .filter text => (s.filter text).map id .items
  | .item tag => (s, .item (s.item tag))
  | .matrix request => (s.matrix request).map id .matrix
  | .pages request => (s.pages request).map id .pages
  | .graph request => (s, .graph (s.graph request))
  | .registry => (s, .registry s.registry)
  | .relationships => (s, .relationships s.index)
  | .diagnostics => (s, .diagnostics s.diagnostics)

def answers (s : Session) : List Operation → List Answer
  | [] => []
  | o :: operations => (s.respond o).2 :: (s.respond o).1.answers operations

/-- The sessions agree in all but their caches, which keep what texts are parsed to. -/
structure Alike (s s' : Session) : Prop where
  registry_eq : s.registry = s'.registry
  index_eq : s.index = s'.index
  diagnostics_eq : s.diagnostics = s'.diagnostics
  faithful : s.cache.Faithful
  faithful' : s'.cache.Faithful

/-- Two outcomes with the same answer, whose sessions are alike. -/
structure AnsweredAlike {α : Type} (r r' : Session × α) : Prop where
  answer_eq : r.2 = r'.2
  alike : r.1.Alike r'.1

theorem AnsweredAlike.map {α β : Type} {r r' : Session × α} (h : AnsweredAlike r r')
    (f : α → β) : AnsweredAlike (r.map id f) (r'.map id f) :=
  ⟨congrArg f h.answer_eq, h.alike⟩

theorem AnsweredAlike.exists_answer {α : Type} {r r' : Session × α} (h : AnsweredAlike r r') :
    ∃ s s' a, r = (s, a) ∧ r' = (s', a) ∧ s.Alike s' := by
  obtain ⟨s, a⟩ := r
  obtain ⟨s', a'⟩ := r'
  have ha : a = a' := h.answer_eq
  exact ⟨s, s', a, rfl, by rw [ha], h.alike⟩

namespace Alike

variable {s s' : Session}

/-- Sessions that are alike differ in a cache only. -/
theorem exists_cache (h : s.Alike s') : ∃ cache, s' = { s with cache } := by
  refine ⟨s'.cache, ?_⟩
  rw [h.registry_eq, h.index_eq, h.diagnostics_eq]

theorem withCaches (h : s.Alike s') (registry : Registry) (diagnostics : Diagnostics) :
    Alike { s with registry, diagnostics } { s' with registry, diagnostics } :=
  ⟨rfl, h.index_eq, rfl, h.faithful, h.faithful'⟩

theorem register (h : s.Alike s') (tag : String) (attributes : Attributes) (origin : Origin) :
    AnsweredAlike (s.register tag attributes origin) (s'.register tag attributes origin) := by
  unfold Session.register
  rw [← h.registry_eq, ← h.diagnostics_eq]
  by_cases hblank : Text.isBlankText tag = true
  · rw [if_pos hblank, if_pos hblank]
    exact ⟨rfl, h⟩
  · rw [if_neg hblank, if_neg hblank]
    simp only
    rcases s.registry.register (Item.declared (Text.trimmed tag) attributes origin) with
      ⟨registry, _ | duplicate⟩
    · exact ⟨rfl, h.withCaches _ _⟩
    · exact ⟨rfl, h.withCaches _ _⟩

theorem resolve (h : s.Alike s') : AnsweredAlike s.resolve s'.resolve := by
  unfold Session.resolve
  rw [← h.registry_eq, ← h.diagnostics_eq, ← h.index_eq]
  exact ⟨rfl, rfl, rfl, rfl, h.faithful, h.faithful'⟩

theorem forget (h : s.Alike s') (document : String) :
    AnsweredAlike (s.forget document) (s'.forget document) := by
  unfold Session.forget
  rw [← h.registry_eq, ← h.diagnostics_eq]
  exact ⟨rfl, h.withCaches _ _⟩

theorem purge (h : s.Alike s') (document : String) :
    AnsweredAlike (s.purge document) (s'.purge document) :=
  ⟨(h.forget document).answer_eq, (h.forget document).alike.resolve.alike⟩

theorem filter (h : s.Alike s') (text : String) :
    AnsweredAlike (s.filter text) (s'.filter text) := by
  have hanswer : (s.filter text).2 = (s'.filter text).2 := by
    rw [snd_filter h.faithful, snd_filter h.faithful', h.registry_eq]
  refine ⟨hanswer, ?_⟩
  rw [fst_filter, fst_filter]
  exact ⟨h.registry_eq, h.index_eq, h.diagnostics_eq,
    Filter.Cache.faithful_request h.faithful text, Filter.Cache.faithful_request h.faithful' text⟩

theorem admissible (h : s.Alike s') (text : Option String) :
    AnsweredAlike (s.admissible text) (s'.admissible text) := by
  unfold Session.admissible
  rw [← h.registry_eq]
  cases text with
  | none => exact ⟨rfl, h⟩
  | some t =>
    simp only
    split
    · exact ⟨rfl, h⟩
    · exact h.filter (Text.trimmed t)

theorem matrix (h : s.Alike s') (request : Matrix.Request) :
    AnsweredAlike (s.matrix request) (s'.matrix request) := by
  unfold Session.matrix Session.require
  rw [← h.index_eq]
  split
  · exact ⟨rfl, h⟩
  · obtain ⟨t, t', primaries, hs, hs', ht⟩ := (h.admissible request.filterPrimaries).exists_answer
    rw [hs, hs']
    cases primaries with
    | error e => exact ⟨rfl, ht⟩
    | ok primaries =>
      obtain ⟨u, u', secondaries, ht, ht', hu⟩ :=
        (ht.admissible request.filterSecondaries).exists_answer
      simp only
      rw [ht, ht']
      cases secondaries with
      | error e => exact ⟨rfl, hu⟩
      | ok secondaries =>
        simp only [hu.index_eq]
        exact ⟨rfl, hu⟩

theorem pages (h : s.Alike s') (request : Matrix.Request) :
    AnsweredAlike (s.pages request) (s'.pages request) := by
  obtain ⟨t, t', found, hs, hs', ht⟩ := (h.matrix request).exists_answer
  unfold Session.pages
  rw [hs, hs']
  cases found with
  | error e => exact ⟨rfl, ht⟩
  | ok matrix => exact ⟨rfl, ht⟩

theorem graph (h : s.Alike s') (request : Graph.Request) : s.graph request = s'.graph request := by
  obtain ⟨cache, rfl⟩ := h.exists_cache
  rfl

/-- One operation is answered alike, and leaves the sessions alike. -/
theorem respond (h : s.Alike s') (o : Operation) : AnsweredAlike (s.respond o) (s'.respond o) := by
  cases o with
  | register tag attributes origin => exact (h.register tag attributes origin).map _
  | resolve => exact h.resolve.map _
  | forget document => exact (h.forget document).map _
  | purge document => exact (h.purge document).map _
  | filter text => exact (h.filter text).map _
  | item tag =>
    refine ⟨congrArg Answer.item ?_, h⟩
    rw [Session.item, Session.item, h.registry_eq]
  | matrix request => exact (h.matrix request).map _
  | pages request => exact (h.pages request).map _
  | graph request => exact ⟨congrArg Answer.graph (h.graph request), h⟩
  | registry => exact ⟨congrArg Answer.registry h.registry_eq, h⟩
  | relationships => exact ⟨congrArg Answer.relationships h.index_eq, h⟩
  | diagnostics => exact ⟨congrArg Answer.diagnostics h.diagnostics_eq, h⟩

theorem answers (h : s.Alike s') (operations : List Operation) :
    s.answers operations = s'.answers operations := by
  induction operations generalizing s s' with
  | nil => rfl
  | cons o operations ih =>
    have hnext := h.respond o
    rw [Session.answers, Session.answers, hnext.answer_eq, ih hnext.alike]

end Alike

theorem alike_empty (index : Relationship.Index) (capacity capacity' : Nat) :
    (empty index capacity).Alike (empty index capacity') :=
  ⟨rfl, rfl, rfl, Filter.Cache.faithful_empty capacity, Filter.Cache.faithful_empty capacity'⟩

/-- A cache answers every request with what its text is parsed to. It holds the filters that
were requested last, as many as there is room for, so that a request finds its filter exactly
if it is one of them; a text that is no filter leaves the cache as it is. Sessions that are
opened with the same relationships therefore give the same answers to all operations,
whatever room their caches have. -/
theorem cache_shows_in_no_answer :
    (∀ (capacity : Nat) (calls : List Filter.Cache.Call),
      let c := (Filter.Cache.empty capacity).run calls
      let kept := (Filter.Cache.recent calls).take (max capacity 1)
      c.keys = kept ∧ (∀ text e, (text, e) ∈ c.entries → Filter.Expression.parse text = .ok e) ∧
        ∀ text, (c.request text).2 = Filter.Expression.parse text ∧
          ((c.entries.lookup text).isSome = true ↔ text ∈ kept) ∧
          ∀ error, Filter.Expression.parse text = .error error → (c.request text).1 = c) ∧
    ∀ (types : List Relationship) (capacity capacity' : Nat) (operations : List Operation),
      (ofRelationships types capacity).map (fun s => s.answers operations) =
        (ofRelationships types capacity').map fun s => s.answers operations := by
  refine ⟨?_, ?_⟩
  · intro capacity calls c kept
    have hfaithful : c.Faithful :=
      Filter.Cache.faithful_run (Filter.Cache.faithful_empty capacity) calls
    have hholds := Filter.Cache.holds_run capacity calls
    have hkeys : c.keys = kept := by
      rw [hholds.keys_eq, hholds.capacity_eq]
    refine ⟨hkeys, hfaithful, ?_⟩
    intro text
    refine ⟨Filter.Cache.snd_request hfaithful text, ?_, ?_⟩
    · rw [Filter.Cache.lookup_isSome_iff, hkeys]
    · intro error herror
      have hfree := hholds.notMem_keys (Filter.isFilter_of_error herror)
      rw [c.request_of_error hfree herror]
  · intro types capacity capacity' operations
    unfold ofRelationships
    cases Relationship.Index.ofList types with
    | error conflict => rfl
    | ok index =>
      exact congrArg Except.ok ((alike_empty index capacity capacity').answers operations)

/-- A text that is requested again stays, and the one that was requested before it goes. A
text that is no filter has no part in this. -/
theorem cache_shows_in_no_answer_of_eviction :
    let c := (Filter.Cache.empty 2).run [.request "a == b", .request "b == a",
      .request "a == b", .request "=", .request "a in b"]
    c.keys = ["a in b", "a == b"] ∧ (c.request "=").1 = c ∧
      (c.entries.lookup "b == a").isSome = false ∧
      ∃ e, (c.request "b == a").2 = .ok e ∧ e.identifiers = ["b", "a"] := by
  intro c
  have hfirst : Filter.Expression.parse "a == b" =
      .ok ⟨"a == b", ⟨.identifier "a", .sign .eq, .identifier "b"⟩, []⟩ :=
    Filter.parse_eq_ok_iff.mpr ⟨rfl, [⟨.identifier "a", 0, ['a']⟩, ⟨.sign .eq, 2, ['=', '=']⟩,
      ⟨.identifier "b", 5, ['b']⟩], Filter.tokenize_eq_ok (by decide +kernel), rfl⟩
  have hsecond : Filter.Expression.parse "b == a" =
      .ok ⟨"b == a", ⟨.identifier "b", .sign .eq, .identifier "a"⟩, []⟩ :=
    Filter.parse_eq_ok_iff.mpr ⟨rfl, [⟨.identifier "b", 0, ['b']⟩, ⟨.sign .eq, 2, ['=', '=']⟩,
      ⟨.identifier "a", 5, ['a']⟩], Filter.tokenize_eq_ok (by decide +kernel), rfl⟩
  have hthird : Filter.Expression.parse "a in b" =
      .ok ⟨"a in b", ⟨.identifier "a", .within, .identifier "b"⟩, []⟩ :=
    Filter.parse_eq_ok_iff.mpr ⟨rfl, [⟨.identifier "a", 0, ['a']⟩, ⟨.within, 2, ['i', 'n']⟩,
      ⟨.identifier "b", 5, ['b']⟩], Filter.tokenize_eq_ok (by decide +kernel), rfl⟩
  have hbroken : Filter.Expression.parse "=" = .error ⟨"=", 0, .unexpectedCharacter '='⟩ := by
    have hscan : Filter.tokenize "=".toList = .error (0, .unexpectedCharacter '=') :=
      Filter.scan_fault rfl rfl rfl 0
    rw [Filter.Expression.parse, hscan]
  have hrecent : Filter.Cache.recent [.request "a == b", .request "b == a", .request "a == b",
      .request "=", .request "a in b"] = ["a in b", "a == b", "b == a"] := by
    have hrequested : Filter.Cache.requested [.request "a == b", .request "b == a",
        .request "a == b", .request "=", .request "a in b"] =
      ["a in b", "=", "a == b", "b == a", "a == b"] := rfl
    rw [Filter.Cache.recent, hrequested]
    simp only [List.filter_cons, Filter.isFilter_of_parse hfirst,
      Filter.isFilter_of_parse hsecond, Filter.isFilter_of_parse hthird,
      Filter.isFilter_of_error hbroken, if_true, Bool.false_eq_true, if_false, List.filter_nil]
    decide
  obtain ⟨hkeys, -, hrequest⟩ := cache_shows_in_no_answer.1 2
    [.request "a == b", .request "b == a", .request "a == b", .request "=", .request "a in b"]
  rw [hrecent] at hkeys
  refine ⟨hkeys, (hrequest "=").2.2 _ hbroken, ?_, _, (hrequest "b == a").1.trans hsecond, rfl⟩
  rw [Bool.eq_false_iff, Ne, (hrequest "b == a").2.1, hrecent]
  decide

end Session

end Traceability
