import Traceability.Proofs.Matrix.Transpose
import Traceability.Proofs.Session.Answers
import Traceability.Proofs.Session.Matrices

/-!
A filter means the same for a list and for a matrix. A matrix trims its filters before they are
parsed, but a text and the trimmed text are the same filter or none of them is one. So a matrix
is refused exactly if a list would refuse one of its filters, and its pairs are those of the
items that the two lists show.
-/

namespace Traceability.Session

variable {s : Session}

theorem filter_eq_ok_iff (hs : s.cache.Faithful) {text : String} {items : List Item} :
    (s.filter text).2 = .ok items ↔
      ∃ first rest, Filter.Expression.parse text = .ok ⟨text, first, rest⟩ ∧
        items = select s.registry.all ⟨text, first, rest⟩ := by
  rw [snd_filter hs]
  cases hparse : Filter.Expression.parse text with
  | error error => simp
  | ok e =>
    obtain ⟨source, first, rest⟩ := e
    obtain rfl : source = text := (Filter.parse_eq_ok_iff.mp hparse).1
    simp only [Except.ok.injEq, Filter.Expression.mk.injEq, true_and]
    constructor
    · rintro rfl
      exact ⟨first, rest, ⟨rfl, rfl⟩, rfl⟩
    · rintro ⟨_, _, ⟨rfl, rfl⟩, rfl⟩
      rfl

/-- A list shows the same items for a text and for the trimmed text. -/
theorem filter_trimmed_iff (hs : s.cache.Faithful) {text : String} {items : List Item} :
    (s.filter (Text.trimmed text)).2 = .ok items ↔ (s.filter text).2 = .ok items := by
  rw [filter_eq_ok_iff hs, filter_eq_ok_iff hs]
  exact exists_congr fun first => exists_congr fun rest =>
    and_congr_left' (Filter.parse_trimmed text first rest)

theorem blank_or_text (f : Option String) :
    f.all Text.isBlankText = true ∨ ∃ text, f = some text ∧ Text.isBlankText text = false := by
  cases f with
  | none => exact Or.inl rfl
  | some text =>
    cases hblank : Text.isBlankText text with
    | true => exact Or.inl hblank
    | false => exact Or.inr ⟨text, rfl, hblank⟩

/-- What is asked of a text that is not blank is asked of no blank filter. -/
theorem forall_of_blank {f : Option String} (h : f.all Text.isBlankText = true)
    {P : String → Prop} : ∀ text ∈ f, Text.isBlankText text = false → P text := by
  rintro text rfl hnot
  rw [Option.all_some, hnot] at h
  contradiction

theorem admissible_of_blank {f : Option String} (h : f.all Text.isBlankText = true) :
    s.admissible f = (s, .ok s.registry.all) := by
  cases f with
  | none => rfl
  | some text => exact if_pos h

theorem admissible_of_not_blank {text : String} (h : Text.isBlankText text = false) :
    s.admissible (some text) = s.filter (Text.trimmed text) := by
  simp [admissible, h]

theorem admissible_eq_ok_iff (hs : s.cache.Faithful) {text : String}
    (h : Text.isBlankText text = false) {items : List Item} :
    (s.admissible (some text)).2 = .ok items ↔ (s.filter text).2 = .ok items := by
  rw [admissible_of_not_blank h, filter_trimmed_iff hs]

/-- No filter, a blank one or one that a list takes. -/
def Accepts (s : Session) (f : Option String) : Prop :=
  ∀ text ∈ f, Text.isBlankText text = false → ∃ items, (s.filter text).2 = .ok items

/-- A list with the filter shows the item; no filter and a blank one stand for every item. -/
def Lists (s : Session) (f : Option String) (item : Item) : Prop :=
  item ∈ s.registry.all ∧ ∀ text ∈ f, Text.isBlankText text = false →
    ∃ items, (s.filter text).2 = .ok items ∧ item ∈ items

theorem exists_admissible_iff (hs : s.cache.Faithful) (f : Option String) :
    (∃ items, (s.admissible f).2 = .ok items) ↔ s.Accepts f := by
  obtain hblank | ⟨text, rfl, hnot⟩ := blank_or_text f
  · rw [admissible_of_blank hblank]
    exact iff_of_true ⟨_, rfl⟩ (forall_of_blank hblank)
  · simp only [admissible_eq_ok_iff hs hnot, Accepts, Option.mem_def, Option.some.injEq,
      forall_eq', hnot, forall_const]

theorem mem_admissible_iff (hs : s.cache.Faithful) {f : Option String} {items : List Item}
    (h : (s.admissible f).2 = .ok items) (item : Item) : item ∈ items ↔ s.Lists f item := by
  obtain hblank | ⟨text, rfl, hnot⟩ := blank_or_text f
  · rw [admissible_of_blank hblank] at h
    cases h
    exact (and_iff_left (forall_of_blank hblank)).symm
  · rw [admissible_eq_ok_iff hs hnot] at h
    obtain ⟨first, rest, -, hitems⟩ := (filter_eq_ok_iff hs).mp h
    constructor
    · intro hmem
      refine ⟨(mem_select.mp (hitems ▸ hmem)).1, ?_⟩
      rintro _ ⟨⟩ -
      exact ⟨items, h, hmem⟩
    · rintro ⟨-, hlists⟩
      obtain ⟨items', hitems', hmem⟩ := hlists text rfl hnot
      rw [h] at hitems'
      cases hitems'
      exact hmem

/-- A session admits items and differs from before in its parsed filters only. -/
theorem alike_admissible (hs : s.cache.Faithful) (f : Option String) :
    (s.admissible f).1.Alike s := by
  obtain hblank | ⟨text, rfl, hnot⟩ := blank_or_text f
  · rw [admissible_of_blank hblank]
    exact ⟨rfl, rfl, rfl, hs, hs⟩
  · rw [admissible_of_not_blank hnot, fst_filter]
    exact ⟨rfl, rfl, rfl, Filter.Cache.faithful_request hs _, hs⟩

section Configured

variable {name : String} (hname : s.index.contains name = true)
include hname

theorem matrix_eq_ok_iff (hs : s.cache.Faithful) (f g : Option String) (rows columns : Option Nat)
    (m : Matrix) :
    (s.matrix ⟨name, f, g, rows, columns⟩).2 = .ok m ↔
      ∃ primaries secondaries, (s.admissible f).2 = .ok primaries ∧
        (s.admissible g).2 = .ok secondaries ∧
        m = Matrix.ofPairs name (s.index.opposite name)
          (pairs name primaries (secondaries.map Item.tag)) := by
  have halike := alike_admissible hs f
  unfold matrix
  -- The second filter is asked of the session that the first one leaves, which answers alike.
  simp only [require, hname, if_true]
  rcases hprimaries : s.admissible f with ⟨s', error | primaries⟩
  · simp
  · rw [hprimaries] at halike
    have hsecond := alike_admissible halike.faithful g
    have hanswer := (halike.admissible g).answer_eq
    rcases hsecondaries : s'.admissible g with ⟨s'', error | secondaries⟩
    · rw [hsecondaries] at hanswer
      simp [← hanswer, hsecondaries]
    · rw [hsecondaries] at hanswer hsecond
      have hindex : s''.index = s.index := hsecond.index_eq.trans halike.index_eq
      simp [← hanswer, hsecondaries, hindex, eq_comm]

theorem exists_matrix_iff (hs : s.cache.Faithful) (f g : Option String)
    (rows columns : Option Nat) :
    (∃ m, (s.matrix ⟨name, f, g, rows, columns⟩).2 = .ok m) ↔ s.Accepts f ∧ s.Accepts g := by
  simp only [matrix_eq_ok_iff hname hs, ← exists_admissible_iff hs]
  constructor
  · rintro ⟨_, primaries, secondaries, hprimaries, hsecondaries, -⟩
    exact ⟨⟨primaries, hprimaries⟩, secondaries, hsecondaries⟩
  · rintro ⟨⟨primaries, hprimaries⟩, secondaries, hsecondaries⟩
    exact ⟨_, primaries, secondaries, hprimaries, hsecondaries, rfl⟩

theorem isRelated_matrix_iff (hs : s.cache.Faithful) {f g : Option String}
    {rows columns : Option Nat} {m : Matrix}
    (h : (s.matrix ⟨name, f, g, rows, columns⟩).2 = .ok m) (p q : String) :
    m.isRelated p q = true ↔ ∃ primary secondary, s.Lists f primary ∧ s.Lists g secondary ∧
      primary.tag = p ∧ secondary.tag = q ∧ q ∈ primary.relatives name := by
  obtain ⟨primaries, secondaries, hprimaries, hsecondaries, rfl⟩ :=
    (matrix_eq_ok_iff hname hs f g rows columns m).mp h
  rw [Matrix.isRelated_ofPairs, mem_pairs]
  simp only [List.mem_map, mem_admissible_iff hs hprimaries, mem_admissible_iff hs hsecondaries]
  constructor
  · rintro ⟨primary, hlisted, htag, hrelated, secondary, hlisted', htag'⟩
    exact ⟨primary, secondary, hlisted, hlisted', htag, htag', hrelated⟩
  · rintro ⟨primary, secondary, hlisted, hlisted', htag, htag', hrelated⟩
    exact ⟨primary, hlisted, htag, hrelated, secondary, hlisted', htag'⟩

end Configured

/-- A text is the same filter as the trimmed text or, like it, none. Whatever is registered, the
matrix of a configured relationship takes a filter, at either side, exactly if a list takes it,
and admits the items that the list shows. Its pairs are the related ones between the items that
both filters admit. -/
theorem matrices_take_list_filters {s : Session} (hs : s.cache.Faithful) {name : String}
    (hname : s.index.contains name = true) :
    (∀ text first rest,
      Filter.Expression.parse (Text.trimmed text) = .ok ⟨Text.trimmed text, first, rest⟩ ↔
        Filter.Expression.parse text = .ok ⟨text, first, rest⟩) ∧
    (∀ text, Text.isBlankText text = false → ∀ rows columns,
      ((∃ items, (s.filter text).2 = .ok items) ↔
        ∃ m, (s.matrix ⟨name, some text, some text, rows, columns⟩).2 = .ok m) ∧
      ∀ items, (s.admissible (some text)).2 = .ok items ↔ (s.filter text).2 = .ok items) ∧
    ∀ f g rows columns,
      ((∃ m, (s.matrix ⟨name, f, g, rows, columns⟩).2 = .ok m) ↔ s.Accepts f ∧ s.Accepts g) ∧
      ∀ m, (s.matrix ⟨name, f, g, rows, columns⟩).2 = .ok m → ∀ p q,
        m.isRelated p q = true ↔ ∃ primary secondary, s.Lists f primary ∧ s.Lists g secondary ∧
          primary.tag = p ∧ secondary.tag = q ∧ q ∈ primary.relatives name := by
  refine ⟨Filter.parse_trimmed, fun text hblank rows columns => ⟨?_, fun items => ?_⟩,
    fun f g rows columns => ⟨exists_matrix_iff hname hs f g rows columns,
      fun m hm => isRelated_matrix_iff hname hs hm⟩⟩
  · have haccepts : s.Accepts (some text) ↔ ∃ items, (s.filter text).2 = .ok items := by
      rw [← exists_admissible_iff hs]
      exact exists_congr fun items => admissible_eq_ok_iff hs hblank
    rw [exists_matrix_iff hname hs, and_self, haccepts]
  · exact admissible_eq_ok_iff hs hblank

/-- Both filters begin and end with a line feed, and the item that they leave out is neither a
row nor a column. -/
theorem matrices_take_list_filters_of_lineFeeds :
    ∃ start, ofRelationships [.between "parents" "children"] 1 = .ok start ∧
      let s := (start.run [.register "A" (.ofList [("parents", "B, C")]) ⟨"a.rst", 1⟩,
        .register "B" ∅ ⟨"a.rst", 2⟩,
        .register "C" (.ofList [("parents", "A")]) ⟨"a.rst", 3⟩]).resolve.1
      let text := "\n tag != 'C'\n"
      ∃ m, (s.matrix ⟨"parents", some text, some text, none, none⟩).2 = .ok m ∧
        m.isRelated "A" "B" = true ∧ m.isRelated "A" "C" = false ∧
        m.isRelated "C" "A" = false := by
  have hstart : ofRelationships [.between "parents" "children"] 1 = .ok _ := rfl
  refine ⟨_, hstart, ?_⟩
  intro s text
  have hs : s.cache.Faithful := ((Reached.opened hstart).run _).resolve.faithful
  have htokens : Filter.tokenize text.toList =
      .ok [⟨.separator, 0, ['\n']⟩, ⟨.identifier "tag", 2, ['t', 'a', 'g']⟩,
        ⟨.sign .ne, 6, ['!', '=']⟩, ⟨.text "C", 9, ['\'', 'C', '\'']⟩,
        ⟨.separator, 12, ['\n']⟩] :=
    Filter.tokenize_eq_ok (by decide +kernel)
  have hparse : Filter.Expression.parse text =
      .ok ⟨text, ⟨.identifier "tag", .sign .ne, .text "C"⟩, []⟩ :=
    Filter.parse_eq_ok_iff.mpr ⟨rfl, _, htokens, rfl⟩
  have hanswer := snd_filter_of_parse hs hparse
  have hname : s.index.contains "parents" = true := rfl
  have hblank : Text.isBlankText text = false := by decide +kernel
  obtain ⟨-, haccepts, hsides⟩ := matrices_take_list_filters hs hname
  obtain ⟨m, hm⟩ := (haccepts text hblank none none).1.mp ⟨_, hanswer⟩
  have hrelated := (hsides (some text) (some text) none none).2 m hm
  have hlists : ∀ item, s.Lists (some text) item ↔ item ∈ s.registry.all ∧ item.tag ≠ "C" := by
    intro item
    have hholds : (⟨text, ⟨.identifier "tag", .sign .ne, .text "C"⟩, []⟩ :
        Filter.Expression).evaluate item.value? = .ok (!(item.tag == "C")) := rfl
    have hselected := mem_admissible_iff hs ((admissible_eq_ok_iff hs hblank).mpr hanswer) item
    rw [← hselected, mem_select, hholds, Except.ok.injEq, Bool.not_eq_true', beq_eq_false_iff_ne]
  refine ⟨m, hm, ?_, ?_, ?_⟩
  · refine (hrelated "A" "B").mpr ⟨_, _, (hlists _).mpr ⟨.head _, ?_⟩,
      (hlists _).mpr ⟨.tail _ (.head _), ?_⟩, rfl, rfl, ?_⟩
    all_goals decide +kernel
  · rw [Bool.eq_false_iff]
    intro h
    obtain ⟨_, secondary, -, hlisted, -, htag, -⟩ := (hrelated "A" "C").mp h
    exact ((hlists secondary).mp hlisted).2 htag
  · rw [Bool.eq_false_iff]
    intro h
    obtain ⟨primary, _, hlisted, -, htag, -⟩ := (hrelated "C" "A").mp h
    exact ((hlists primary).mp hlisted).2 htag

end Traceability.Session
