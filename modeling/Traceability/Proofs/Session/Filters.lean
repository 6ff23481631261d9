import Traceability.Proofs.Filter.Composition
import Traceability.Proofs.Session.Arising

/-!
The answers of a session to filters. The filters that a session keeps are those that their
texts are parsed to, so that an answer depends on the text and the registered items alone.
-/

namespace Traceability

namespace Filter.Cache

/-- What is kept under a text is the filter that the text is parsed to. -/
def Faithful (c : Cache) : Prop :=
  ∀ text e, (text, e) ∈ c.entries → Expression.parse text = .ok e

theorem faithful_empty (capacity : Nat) : (empty capacity).Faithful := by
  intro text e hmem
  exact absurd hmem List.not_mem_nil

variable {c : Cache}

theorem faithful_remember (h : c.Faithful) {text : String} {e : Expression}
    (hparse : Expression.parse text = .ok e) : (c.remember text e).Faithful := by
  intro text' e' hmem
  rcases List.mem_cons.mp (List.mem_of_mem_take hmem) with hnew | hkept
  · cases hnew
    exact hparse
  · exact h text' e' (List.mem_filter.mp hkept).1

theorem parse_of_lookup (h : c.Faithful) {text : String} {e : Expression}
    (hlookup : c.entries.lookup text = some e) : Expression.parse text = .ok e := by
  obtain ⟨before, behind, hentries, -⟩ := List.lookup_eq_some_iff.mp hlookup
  exact h text e (by simp [hentries])

theorem snd_request (h : c.Faithful) (text : String) :
    (c.request text).2 = Expression.parse text := by
  unfold request
  split
  · rename_i hlookup
    exact (parse_of_lookup h hlookup).symm
  · split
    · rename_i hparse
      exact hparse.symm
    · rename_i hparse
      exact hparse.symm

theorem faithful_request (h : c.Faithful) (text : String) : (c.request text).1.Faithful := by
  unfold request
  split
  · rename_i hlookup
    exact faithful_remember h (parse_of_lookup h hlookup)
  · split
    · rename_i hparse
      exact faithful_remember h hparse
    · exact h

end Filter.Cache

namespace Session

theorem fst_filter (s : Session) (text : String) :
    (s.filter text).1 = { s with cache := (s.cache.request text).1 } := by
  unfold filter
  rcases s.cache.request text with ⟨cache, error | e⟩
  · rfl
  · rfl

theorem snd_filter {s : Session} (h : s.cache.Faithful) (text : String) :
    (s.filter text).2 =
      match Filter.Expression.parse text with
      | .ok e => .ok (select s.registry.all e)
      | .error error => .error (.filter error) := by
  rw [← Filter.Cache.snd_request h text]
  unfold filter
  rcases s.cache.request text with ⟨cache, error | e⟩
  · rfl
  · rfl

theorem snd_filter_of_parse {s : Session} (h : s.cache.Faithful) {text : String}
    {e : Filter.Expression} (hparse : Filter.Expression.parse text = .ok e) :
    (s.filter text).2 = .ok (select s.registry.all e) := by
  rw [snd_filter h, hparse]

/-- Sessions that come about together with the filters that they were asked. -/
inductive Reached : Session → Prop
  | opened {types : List Relationship} {capacity : Nat} {s : Session}
      (h : ofRelationships types capacity = .ok s) : Reached s
  | register {s : Session} (h : Reached s) (tag : String) (attributes : Attributes)
      (origin : Origin) : Reached (s.register tag attributes origin).1
  | forget {s : Session} (h : Reached s) (document : String) : Reached (s.forget document).1
  | resolve {s : Session} (h : Reached s) : Reached s.resolve.1
  | filter {s : Session} (h : Reached s) (text : String) : Reached (s.filter text).1

namespace Reached

variable {s : Session}

theorem arises (h : Reached s) : s.Arises := by
  induction h with
  | opened h => exact Arises.opened h
  | register _ tag attributes origin ih => exact ih.register tag attributes origin
  | forget _ document ih => exact ih.forget document
  | resolve _ ih => exact ih.resolve
  | filter _ text ih =>
    rw [fst_filter]
    exact ih.asked _

theorem faithful (h : Reached s) : s.cache.Faithful := by
  induction h with
  | opened h =>
    obtain ⟨index, -, rfl⟩ := exists_index_of_ofRelationships h
    exact Filter.Cache.faithful_empty _
  | @register s _ tag attributes origin ih =>
    cases hblank : Text.isBlankText tag with
    | true => rwa [register_blank s tag attributes origin hblank]
    | false =>
      rw [register_not_blank s tag attributes origin hblank]
      exact ih
  | forget _ _ ih => exact ih
  | resolve _ ih => exact ih
  | filter _ text ih =>
    rw [fst_filter]
    exact Filter.Cache.faithful_request ih text

theorem run (h : Reached s) (events : List Event) : Reached (s.run events) :=
  run_preserves (fun _ tag attributes origin h => h.register tag attributes origin)
    (fun _ document h => h.forget document) (fun _ h => h.resolve) s h events

theorem admissible (h : Reached s) (text : Option String) : Reached (s.admissible text).1 := by
  unfold Session.admissible
  split
  · exact h
  · split
    · exact h
    · exact h.filter _

theorem matrix (h : Reached s) (request : Matrix.Request) : Reached (s.matrix request).1 := by
  unfold Session.matrix
  split
  · exact h
  · split
    · rename_i s' _ hprimaries
      have hreached := h.admissible request.filterPrimaries
      rw [hprimaries] at hreached
      exact hreached
    · rename_i s' primaries hprimaries
      have hreached := h.admissible request.filterPrimaries
      rw [hprimaries] at hreached
      have hnext := hreached.admissible request.filterSecondaries
      split
      · rename_i hsecondaries
        rw [hsecondaries] at hnext
        exact hnext
      · rename_i hsecondaries
        rw [hsecondaries] at hnext
        exact hnext

theorem pages (h : Reached s) (request : Matrix.Request) : Reached (s.pages request).1 := by
  have hmatrix := h.matrix request
  unfold Session.pages
  split
  · rename_i heq
    rw [heq] at hmatrix
    exact hmatrix
  · rename_i heq
    rw [heq] at hmatrix
    exact hmatrix

end Reached

theorem mem_select {items : List Item} {e : Filter.Expression} {item : Item} :
    item ∈ select items e ↔ item ∈ items ∧ e.evaluate item.value? = .ok true := by
  rw [select, List.mem_filter, Filter.accepts_iff]

/-- The items that a conjunction accepts are those that both filters accept. -/
theorem select_of_conjunction {both left right : Filter.Expression}
    (h : ∀ source, both.evaluate source = .ok true ↔
      left.evaluate source = .ok true ∧ right.evaluate source = .ok true) (items : List Item) :
    select items both =
      (select items left).filter fun item => decide (item ∈ select items right) := by
  unfold select
  rw [List.filter_filter]
  apply List.filter_congr
  intro item hitem
  rw [Bool.eq_iff_iff, Bool.and_eq_true, decide_eq_true_iff, ← select, mem_select,
    Filter.accepts_iff, Filter.accepts_iff, h]
  constructor
  · rintro ⟨hleft, hright⟩
    exact ⟨⟨hitem, hright⟩, hleft⟩
  · rintro ⟨⟨-, hright⟩, hleft⟩
    exact ⟨hleft, hright⟩

/-- A filter and a comparison that are joined with `and` hold where both of them hold. Joined
with `or`, they hold where the filter holds, and where the comparison holds and the filter
fails without reading a missing name. So a session answers a conjunction with the items that
it answers to both parts. -/
theorem conjunction_intersects {e q : String} {left right : Filter.Expression}
    (he : Filter.Expression.parse e = .ok left) (hq : Filter.Expression.parse q = .ok right)
    (hsingle : right.rest = []) (hend : ¬ Filter.EndsWithSeparator e)
    (hstart : ¬ Filter.StartsWithSeparator q) :
    (∃ both, Filter.Expression.parse (e ++ " and " ++ q) = .ok both ∧
      ∀ source, both.evaluate source = .ok true ↔
        left.evaluate source = .ok true ∧ right.evaluate source = .ok true) ∧
    (∃ either, Filter.Expression.parse (e ++ " or " ++ q) = .ok either ∧
      ∀ source, either.evaluate source = .ok true ↔
        left.evaluate source = .ok true ∨
          left.evaluate source = .ok false ∧ right.evaluate source = .ok true) ∧
    ∀ s : Session, s.cache.Faithful → ∃ items others,
      (s.filter e).2 = .ok items ∧ (s.filter q).2 = .ok others ∧
        (s.filter (e ++ " and " ++ q)).2 =
          .ok (items.filter fun item => decide (item ∈ others)) := by
  have hand := Filter.parse_joined .and he hq hend hstart
  have hor := Filter.parse_joined .or he hq hend hstart
  rw [hsingle] at hand hor
  have hboth (source : Filter.Source) := Filter.evaluate_and_eq_true_iff source
    (e ++ Filter.Connective.and.between ++ q) left right.first
  have heither (source : Filter.Source) := Filter.evaluate_or_eq_true_iff source
    (e ++ Filter.Connective.or.between ++ q) left right.first
  simp only [← Filter.evaluate_of_single hsingle] at hboth heither
  refine ⟨⟨_, hand, hboth⟩, ⟨_, hor, heither⟩, ?_⟩
  intro s hs
  refine ⟨_, _, snd_filter_of_parse hs he, snd_filter_of_parse hs hq, ?_⟩
  rw [← select_of_conjunction hboth]
  exact snd_filter_of_parse hs hand

/-- What stands behind `or` makes up for a state that is another one, not for a missing one,
and a conjunction passes over an item whose state is missing. -/
theorem conjunction_intersects_of_miss :
    (∃ either, Filter.Expression.parse ("state == 'open'" ++ " or " ++ "tag == 'B'") = .ok either ∧
      either.evaluate (Item.declared "B" (.ofList [("state", "closed")]) ⟨"a.rst", 1⟩).value? =
        .ok true ∧
      either.evaluate (Item.declared "B" ∅ ⟨"a.rst", 1⟩).value? ≠ .ok true) ∧
    ∃ start, ofRelationships [] 1 = .ok start ∧
      let s := start.run [.register "A" ∅ ⟨"a.rst", 1⟩,
        .register "B" (.ofList [("state", "open")]) ⟨"a.rst", 2⟩,
        .register "C" (.ofList [("state", "open")]) ⟨"a.rst", 3⟩]
      ∃ items, (s.filter ("state == 'open'" ++ " and " ++ "tag == 'B'")).2 = .ok items ∧
        items.map Item.tag = ["B"] := by
  have htokens : Filter.tokenize "state == 'open'".toList =
      .ok [⟨.identifier "state", 0, ['s', 't', 'a', 't', 'e']⟩, ⟨.sign .eq, 6, ['=', '=']⟩,
        ⟨.text "open", 9, ['\'', 'o', 'p', 'e', 'n', '\'']⟩] :=
    Filter.tokenize_eq_ok (by decide +kernel)
  have htokens' : Filter.tokenize "tag == 'B'".toList =
      .ok [⟨.identifier "tag", 0, ['t', 'a', 'g']⟩, ⟨.sign .eq, 4, ['=', '=']⟩,
        ⟨.text "B", 7, ['\'', 'B', '\'']⟩] := Filter.tokenize_eq_ok (by decide +kernel)
  have hleft : Filter.Expression.parse "state == 'open'" =
      .ok ⟨"state == 'open'", ⟨.identifier "state", .sign .eq, .text "open"⟩, []⟩ :=
    Filter.parse_eq_ok_iff.mpr ⟨rfl, _, htokens, rfl⟩
  have hright : Filter.Expression.parse "tag == 'B'" =
      .ok ⟨"tag == 'B'", ⟨.identifier "tag", .sign .eq, .text "B"⟩, []⟩ :=
    Filter.parse_eq_ok_iff.mpr ⟨rfl, _, htokens', rfl⟩
  have hstart : ofRelationships [] 1 = .ok (empty .empty 1) := rfl
  obtain ⟨-, ⟨either, hparse, heither⟩, hanswers⟩ := conjunction_intersects hleft hright rfl
    (Filter.not_endsWithSeparator htokens (by decide))
    (Filter.not_startsWithSeparator htokens' (by decide))
  refine ⟨⟨either, hparse, (heither _).mpr (Or.inr ⟨rfl, rfl⟩), ?_⟩, _, hstart, ?_⟩
  · have hmiss : Filter.Expression.evaluate (Item.declared "B" ∅ ⟨"a.rst", 1⟩).value?
        ⟨"state == 'open'", ⟨.identifier "state", .sign .eq, .text "open"⟩, []⟩ =
          .error ⟨"state"⟩ := rfl
    rw [Ne, heither, hmiss]
    simp
  · intro s
    have hs : s.cache.Faithful := ((Reached.opened hstart).run _).faithful
    obtain ⟨items, others, hitems, hothers, hboth⟩ := hanswers s hs
    rw [snd_filter_of_parse hs hleft] at hitems
    rw [snd_filter_of_parse hs hright] at hothers
    cases hitems
    cases hothers
    exact ⟨_, hboth, rfl⟩

end Session

end Traceability
