import Traceability.Proofs.Matrix.Transpose
import Traceability.Proofs.Session.Filters

/-!
The matrices of a resolved session. A matrix shows the related pairs that the filters of its
request admit. Since every relative is related back under the opposite name, the request
for the opposite name with the filters exchanged is answered with the transposed matrix.
-/

namespace Traceability

namespace Filter

/-- A filter that can be asked for: none, a blank one, or one that is parsed. -/
def Usable (text : Option String) : Prop :=
  ∀ t ∈ text, Text.isBlankText t = false → ∃ e, Expression.parse t = .ok e

/-- No filter and a blank one admit everything; another one admits where it is true. -/
def Admits (text : Option String) (source : Source) : Prop :=
  ∀ t ∈ text, Text.isBlankText t = false →
    ∃ e, Expression.parse t = .ok e ∧ e.evaluate source = .ok true

theorem admits_of_blank {text : Option String} (h : text.all Text.isBlankText = true)
    (source : Source) : Admits text source := by
  rintro t rfl hblank
  rw [Option.all_some, hblank] at h
  contradiction

theorem admits_iff {t : String} {e : Expression} (hblank : Text.isBlankText t = false)
    (hparse : Expression.parse t = .ok e) (source : Source) :
    Admits (some t) source ↔ e.evaluate source = .ok true := by
  constructor
  · intro h
    obtain ⟨e', hparse', hholds⟩ := h t rfl hblank
    rw [hparse, Except.ok.injEq] at hparse'
    rw [hparse']
    exact hholds
  · intro hholds t' ht' _
    cases ht'
    exact ⟨e, hparse, hholds⟩

end Filter

namespace Session

/-- A session answers a request of its matrices with the items that the filter admits, and
changes nothing but its parsed filters. -/
theorem exists_admissible {s : Session} (hs : s.cache.Faithful) {text : Option String}
    (htext : Filter.Usable text) :
    ∃ cache items, cache.Faithful ∧ s.admissible text = ({ s with cache }, .ok items) ∧
      ∀ item, item ∈ items ↔ item ∈ s.registry.all ∧ Filter.Admits text item.value? := by
  cases text with
  | none =>
    refine ⟨s.cache, s.registry.all, hs, rfl, fun item => ?_⟩
    simp [Filter.admits_of_blank]
  | some t =>
    cases hblank : Text.isBlankText t with
    | true =>
      refine ⟨s.cache, s.registry.all, hs, ?_, fun item => ?_⟩
      · simp [admissible, hblank]
      · simp [Filter.admits_of_blank, hblank]
    | false =>
      obtain ⟨e, hparse⟩ := htext t rfl hblank
      have hsource : e.source = t := (Filter.parse_eq_ok_iff.mp hparse).1
      have htrimmed : Filter.Expression.parse (Text.trimmed t) =
          .ok ⟨Text.trimmed t, e.first, e.rest⟩ := by
        rw [Filter.parse_trimmed, hparse, ← hsource]
      refine ⟨(s.cache.request (Text.trimmed t)).1,
        select s.registry.all ⟨Text.trimmed t, e.first, e.rest⟩,
        Filter.Cache.faithful_request hs _, ?_, fun item => ?_⟩
      · rw [← fst_filter, ← snd_filter_of_parse hs htrimmed]
        simp [admissible, hblank]
      · rw [mem_select, Filter.admits_iff hblank hparse]
        rfl

theorem mem_pairs (name : String) (primaries : List Item) (secondaries : List String)
    (p : Pair) :
    p ∈ pairs name primaries secondaries ↔ ∃ item ∈ primaries,
      item.tag = p.primary ∧ p.secondary ∈ item.relatives name ∧ p.secondary ∈ secondaries := by
  obtain ⟨primary, secondary⟩ := p
  simp only [pairs, List.mem_flatMap, List.mem_map, List.mem_filter, decide_eq_true_eq,
    Pair.mk.injEq]
  constructor
  · rintro ⟨item, hitem, tag, ⟨hrelated, hmem⟩, rfl, rfl⟩
    exact ⟨item, hitem, rfl, hrelated, hmem⟩
  · rintro ⟨item, hitem, rfl, hrelated, hmem⟩
    exact ⟨item, hitem, secondary, ⟨hrelated, hmem⟩, rfl, rfl⟩

/-- The item of the tag is registered, and the filter admits it. -/
def Admits (s : Session) (text : Option String) (tag : String) : Prop :=
  ∃ item, s.registry.get? tag = some item ∧ Filter.Admits text item.value?

/-- The pairs that a request for a matrix asks for. -/
def Asks (s : Session) (name : String) (primaries secondaries : Option String) (p : Pair) : Prop :=
  s.registry.Related p.primary name p.secondary ∧ s.Admits primaries p.primary ∧
    s.Admits secondaries p.secondary

/-- A request for a configured relationship, whose filters can be used, is answered with the
matrix of the pairs that it asks for. -/
theorem exists_matrix {s : Session} (hs : s.cache.Faithful) (hkeyed : s.registry.Keyed)
    {name : String} (hname : s.index.contains name = true) {f g : Option String}
    (hf : Filter.Usable f) (hg : Filter.Usable g) :
    ∃ asked, (∀ p, p ∈ asked ↔ s.Asks name f g p) ∧ ∀ rows columns,
      (s.matrix ⟨name, f, g, rows, columns⟩).2 =
        .ok (Matrix.ofPairs name (s.index.opposite name) asked) := by
  obtain ⟨cache, primaries, hcache, hprimaries, hmem⟩ := exists_admissible hs hf
  obtain ⟨cache', secondaries, -, hsecondaries, hmem'⟩ :=
    exists_admissible (s := { s with cache }) hcache hg
  refine ⟨pairs name primaries (secondaries.map Item.tag), fun p => ?_, fun rows columns => ?_⟩
  · have hall (item : Item) : item ∈ s.registry.all ↔ s.registry.get? item.tag = some item := by
      rw [Registry.all, SortedMap.mem_values]
      constructor
      · rintro ⟨tag, hget⟩
        rw [hkeyed tag item hget]
        exact hget
      · intro hget
        exact ⟨item.tag, hget⟩
    simp only [mem_pairs, List.mem_map, hmem, hmem', hall]
    constructor
    · rintro ⟨item, ⟨hget, hadmits⟩, htag, hrelated, other, ⟨hget', hadmits'⟩, htag'⟩
      rw [htag] at hget
      rw [htag'] at hget'
      exact ⟨⟨item, hget, hrelated⟩, ⟨item, hget, hadmits⟩, other, hget', hadmits'⟩
    · rintro ⟨⟨item, hget, hrelated⟩, ⟨item', hget', hadmits⟩, other, hother, hadmits'⟩
      rw [hget] at hget'
      cases hget'
      have htag := hkeyed _ _ hget
      have htag' := hkeyed _ _ hother
      refine ⟨item, ⟨?_, hadmits⟩, htag, hrelated, other, ⟨?_, hadmits'⟩, htag'⟩
      · rw [htag]
        exact hget
      · rw [htag']
        exact hother
  · unfold matrix
    simp only [require, hname, if_true, hprimaries, hsecondaries]

/-- The matrix of a configured relationship has the related pairs that both filters admit,
and no rows and columns but theirs. It is the transposed matrix of the opposite
relationship with the filters exchanged. -/
theorem matrix_transposes (session : Session) (hsession : session.Reached) {name : String}
    (hname : session.index.contains name = true) {f g : Option String}
    (hf : Filter.Usable f) (hg : Filter.Usable g) :
    let s := session.resolve.1
    ∃ m : Matrix, (∀ rows columns, (s.matrix ⟨name, f, g, rows, columns⟩).2 = .ok m) ∧
      (m.relationship = name ∧ m.opposite = s.index.opposite name) ∧
      ((∀ p q, m.isRelated p q = true ↔
          s.registry.Related p name q ∧ s.Admits f p ∧ s.Admits g q) ∧
        ∀ text : Option String, text.all Text.isBlankText = true →
          ∀ tag, s.Admits text tag ↔ (s.registry.get? tag).isSome = true) ∧
      ((∀ p, p ∈ m.primaries ↔ ∃ q, m.isRelated p q = true) ∧
        m.primaries.Pairwise fun p q => Rank.before p q = true) ∧
      ((∀ q, q ∈ m.secondaries ↔ ∃ p, m.isRelated p q = true) ∧
        m.secondaries.Pairwise fun p q => Rank.before p q = true) ∧
      ∀ rows columns,
        (s.matrix ⟨s.index.opposite name, g, f, rows, columns⟩).2 = .ok m.transpose := by
  intro s
  have hs : s.cache.Faithful := hsession.resolve.faithful
  have hkeyed : s.registry.Keyed := hsession.resolve.arises.keyed
  have hindex : s.index.Exact := hsession.arises.exact_index
  have hback := Relationship.Index.opposite_opposite hindex name hname
  obtain ⟨asked, hasked, hanswer⟩ := exists_matrix hs hkeyed hname hf hg
  obtain ⟨exchanged, hexchanged, hopposite⟩ := exists_matrix hs hkeyed hback.1 hg hf
  have hswap : ∀ p, p ∈ exchanged ↔ p.swap ∈ asked := by
    intro p
    have hrelated := Resolution.related_ofRegistry_comm hindex hsession.arises.keyed
      p.secondary name p.primary
    rw [hexchanged, hasked, Asks, Asks, and_comm (a := s.Admits g p.primary)]
    exact and_congr_left' hrelated.symm
  refine ⟨Matrix.ofPairs name (s.index.opposite name) asked, hanswer, ⟨rfl, rfl⟩,
    ⟨fun p q => ?_, ?_⟩, ⟨fun p => ?_, SortedSet.increasing _⟩,
    ⟨fun q => ?_, SortedSet.increasing _⟩, ?_⟩
  · rw [Matrix.isRelated_ofPairs, hasked, Asks]
  · intro text hblank tag
    rw [Option.isSome_iff_exists]
    exact exists_congr fun item => and_iff_left (Filter.admits_of_blank hblank _)
  · simp only [Matrix.mem_primaries_ofPairs, Matrix.isRelated_ofPairs]
  · simp only [Matrix.mem_secondaries_ofPairs, Matrix.isRelated_ofPairs]
  · intro rows columns
    rw [hopposite, hback.2, Matrix.ofPairs_eq_transpose _ _ hswap]

/-- A placeholder is a column where the filter of the columns is blank, and an item without
the state that the filter of the rows reads is no row. -/
theorem matrix_transposes_of_placeholder :
    ∃ start, ofRelationships [.between "parents" "children"] 1 = .ok start ∧
      let s := (start.run
        [.register "A" (.ofList [("parents", "B, C"), ("state", "open")]) ⟨"a.rst", 1⟩,
          .register "B" (.ofList [("children", "D")]) ⟨"a.rst", 2⟩]).resolve.1
      ∃ m, (s.matrix ⟨"parents", some "state == 'open'", some " ", none, none⟩).2 = .ok m ∧
        m.isRelated "A" "C" = true ∧ m.isRelated "D" "B" = false ∧
        (s.matrix ⟨"children", some " ", some "state == 'open'", none, none⟩).2 =
          .ok m.transpose := by
  have hstart : ofRelationships [.between "parents" "children"] 1 = .ok _ := rfl
  have htokens : Filter.tokenize "state == 'open'".toList =
      .ok [⟨.identifier "state", 0, ['s', 't', 'a', 't', 'e']⟩, ⟨.sign .eq, 6, ['=', '=']⟩,
        ⟨.text "open", 9, ['\'', 'o', 'p', 'e', 'n', '\'']⟩] :=
    Filter.tokenize_eq_ok (by decide +kernel)
  have hparse : Filter.Expression.parse "state == 'open'" =
      .ok ⟨"state == 'open'", ⟨.identifier "state", .sign .eq, .text "open"⟩, []⟩ :=
    Filter.parse_eq_ok_iff.mpr ⟨rfl, _, htokens, rfl⟩
  have hf : Filter.Usable (some "state == 'open'") := by
    rintro t ⟨⟩ -
    exact ⟨_, hparse⟩
  have hg : Filter.Usable (some " ") := by
    rintro t ⟨⟩ hblank
    contradiction
  refine ⟨_, hstart, ?_⟩
  intro s
  have hname : s.index.contains "parents" = true := rfl
  obtain ⟨m, hm, -, ⟨hpairs, -⟩, -, -, htranspose⟩ := matrix_transposes _
    ((Reached.opened hstart).run
      [.register "A" (.ofList [("parents", "B, C"), ("state", "open")]) ⟨"a.rst", 1⟩,
        .register "B" (.ofList [("children", "D")]) ⟨"a.rst", 2⟩])
    hname hf hg
  refine ⟨m, hm none none, ?_, ?_, htranspose none none⟩
  · refine (hpairs "A" "C").mpr ⟨⟨_, rfl, by decide⟩, ⟨_, rfl, ?_⟩, _, rfl, ?_⟩
    · exact (Filter.admits_iff rfl hparse _).mpr rfl
    · exact Filter.admits_of_blank rfl _
  · rw [Bool.eq_false_iff]
    intro hrelated
    obtain ⟨-, ⟨item, hget, hadmits⟩, -⟩ := (hpairs "D" "B").mp hrelated
    have hholds := (Filter.admits_iff rfl hparse _).mp hadmits
    cases hget
    contradiction

end Session

end Traceability
