import Traceability.Proofs.Item.Tags
import Traceability.Proofs.Resolution.References
import Traceability.Proofs.Session.Arising

/-!
What one attribute contributes to a resolution, seen against the session without it: the links
to the tags in its value and back. If these tags are declared, it brings no placeholder and no
report. So a declared tag can be referenced by its own text, unless the text has a comma, where
the value is cut.
-/

namespace Traceability

namespace Item

def withoutAttribute (i : Item) (name : String) : Item :=
  { i with attributes := i.attributes.erase name }

end Item

namespace Registry

/-- The declaration of the tag has the attribute, with the value. -/
def Carries (r : Registry) (tag name value : String) : Prop :=
  ∃ item, r.get? tag = some item ∧ item.isDeclared = true ∧
    item.attributes.get? name = some value

/-- The item under the tag loses the attribute. -/
def withoutAttribute (r : Registry) (tag name : String) : Registry :=
  { r with items := r.items.modify tag fun i => i.withoutAttribute name }

section WithoutAttribute

variable (r : Registry) (tag name : String)

theorem get?_withoutAttribute (x : String) :
    (r.withoutAttribute tag name).get? x =
      if x = tag then (r.get? tag).map fun i => i.withoutAttribute name else r.get? x :=
  SortedMap.get?_modify r.items tag x _

theorem keyed_withoutAttribute (hr : r.Keyed) : (r.withoutAttribute tag name).Keyed := by
  intro x item hget
  rw [get?_withoutAttribute] at hget
  split at hget
  · rename_i hx
    obtain ⟨i, hi, rfl⟩ := Option.map_eq_some_iff.mp hget
    rw [hx]
    exact hr tag i hi
  · exact hr x item hget

theorem holder?_withoutAttribute (x : String) :
    (r.withoutAttribute tag name).holder? x = r.holder? x := by
  unfold holder?
  rw [get?_withoutAttribute]
  split
  · rename_i hx
    rw [hx]
    cases r.get? tag <;> rfl
  · rfl

theorem declares_withoutAttribute (x : String) :
    (r.withoutAttribute tag name).declares x = r.declares x := by
  rw [declares_eq, declares_eq, holder?_withoutAttribute]

theorem carries_withoutAttribute (x m value : String) :
    (r.withoutAttribute tag name).Carries x m value ↔
      r.Carries x m value ∧ ¬ (x = tag ∧ m = name) := by
  unfold Carries
  rw [get?_withoutAttribute]
  by_cases hx : x = tag
  · subst hx
    cases hget : r.get? x with
    | none => simp
    | some item =>
      simp only [if_true, Option.map_some, Option.some.injEq, exists_eq_left', true_and,
        Item.withoutAttribute, SortedMap.get?_erase]
      by_cases hm : m = name <;> simp [hm, Item.isDeclared]
  · simp [hx]

end WithoutAttribute

theorem declares_iff (r : Registry) (tag : String) :
    r.declares tag = true ↔ (r.get? tag).map Item.isDeclared = some true := by
  unfold declares
  cases r.get? tag <;> simp

theorem names_iff_carries {r : Registry} {tag name other : String} :
    r.Names tag name other ↔ ∃ value, r.Carries tag name value ∧ other ∈ splitTags value := by
  constructor
  · rintro ⟨item, hget, hdeclared, value, hvalue, hmem⟩
    exact ⟨value, ⟨item, hget, hdeclared, hvalue⟩, hmem⟩
  · rintro ⟨value, ⟨item, hget, hdeclared, hvalue⟩, hmem⟩
    exact ⟨item, hget, hdeclared, value, hvalue, hmem⟩

variable {r : Registry} {tag name value : String}

theorem Carries.eq {value' : String} (h : r.Carries tag name value)
    (h' : r.Carries tag name value') : value' = value := by
  obtain ⟨item, hget, -, hvalue⟩ := h
  obtain ⟨item', hget', -, hvalue'⟩ := h'
  rw [hget, Option.some.injEq] at hget'
  rw [← hget', hvalue, Option.some.injEq] at hvalue'
  exact hvalue'.symm

/-- What the declarations name is what they name without the attribute, and its own tags. -/
theorem Carries.names_iff (h : r.Carries tag name value) (x m other : String) :
    r.Names x m other ↔ (r.withoutAttribute tag name).Names x m other ∨
      x = tag ∧ m = name ∧ other ∈ splitTags value := by
  simp only [names_iff_carries, carries_withoutAttribute]
  constructor
  · rintro ⟨value', hcarries, hmem⟩
    by_cases hplace : x = tag ∧ m = name
    · obtain ⟨rfl, rfl⟩ := hplace
      rw [h.eq hcarries] at hmem
      exact Or.inr ⟨rfl, rfl, hmem⟩
    · exact Or.inl ⟨value', ⟨hcarries, hplace⟩, hmem⟩
  · rintro (⟨value', ⟨hcarries, -⟩, hmem⟩ | ⟨rfl, rfl, hmem⟩)
    · exact ⟨value', hcarries, hmem⟩
    · exact ⟨value, h, hmem⟩

/-- Where the tags of the attribute are declared, a tag that is not declared is named without
the attribute as well. -/
theorem Carries.names_undeclared_iff (h : r.Carries tag name value)
    (hdeclares : ∀ x ∈ splitTags value, r.declares x = true) {other : String}
    (hother : r.declares other = false) (x m : String) :
    (r.withoutAttribute tag name).Names x m other ↔ r.Names x m other := by
  rw [h.names_iff, or_iff_left]
  rintro ⟨-, -, hmem⟩
  rw [hdeclares other hmem] at hother
  contradiction

end Registry

namespace Resolution

variable {index : Relationship.Index} {r r' : Registry}

theorem mem_reports (hindex : index.Exact) (hr : r.Keyed) (d : Diagnostic) :
    d ∈ (ofRegistry index r).reports ↔ ∃ source name tag, index.contains name = true ∧
      r.Names source name tag ∧ r.declares tag = false ∧
      d = .unresolvedReference tag source (r.holder? source) := by
  have hkeyed := Registry.keyed_unresolved r hr
  have hnames := Mention.exists_mem_inRegistry hindex r.unresolved hkeyed
  have horigin : ∀ m ∈ mentions index r, m.referrer.origin = r.holder? m.referrer.tag := by
    intro m hm
    obtain ⟨-, hget, -⟩ := (Mention.mem_inRegistry hindex r.unresolved hkeyed m).mp hm
    rw [← Registry.holder?_unresolved, Registry.holder?, hget]
    rfl
  have hreports : d ∈ (ofRegistry index r).reports ↔
      ∃ m ∈ mentions index r, r.declares m.tag = false ∧ m.report = d := by
    change d ∈ List.eraseDups (((mentions index r).filter _).map _) ↔ _
    simp only [List.mem_eraseDups, List.mem_map, List.mem_filter, Registry.declares_unresolved,
      Bool.not_eq_true', and_assoc]
  simp only [Registry.names_unresolved] at hnames
  rw [hreports]
  constructor
  · rintro ⟨m, hm, hdeclares, rfl⟩
    obtain ⟨hname, hnamed⟩ := (hnames _ _ _).mp ⟨m, hm, rfl, rfl, rfl⟩
    refine ⟨_, _, _, hname, hnamed, hdeclares, ?_⟩
    rw [Mention.report, horigin m hm]
  · rintro ⟨source, name, tag, hname, hnamed, hdeclares, rfl⟩
    obtain ⟨m, hm, rfl, rfl, rfl⟩ := (hnames source name tag).mpr ⟨hname, hnamed⟩
    refine ⟨m, hm, hdeclares, ?_⟩
    rw [Mention.report, horigin m hm]

/-- Whether there is an item after a resolution, and a declared one, depends on what is declared
and what is mentioned. -/
theorem isDeclared_ofRegistry_congr (hindex : index.Exact) (hr : r.Keyed) (hr' : r'.Keyed)
    {tag : String} (hdeclares : r'.declares tag = r.declares tag)
    (hmentions : r.declares tag = false → (r'.Mentions index tag ↔ r.Mentions index tag)) :
    ((ofRegistry index r').registry.get? tag).map Item.isDeclared =
      ((ofRegistry index r).registry.get? tag).map Item.isDeclared := by
  cases h : r.declares tag with
  | true =>
    have hkept (r : Registry) (h : r.declares tag = true) :
        ((ofRegistry index r).registry.get? tag).map Item.isDeclared = some true := by
      rw [← Registry.declares_iff, Registry.declares_eq, holder?_ofRegistry,
        ← Registry.declares_eq, h]
    rw [hkept r h, hkept r' (hdeclares.trans h)]
  | false =>
    have h' := hdeclares.trans h
    have hbare (r : Registry) : ((ofRegistry index r).registry.get? tag).map Item.isDeclared =
        (((ofRegistry index r).registry.get? tag).map Item.withoutRelatives).map
          Item.isDeclared := by
      rw [Option.map_map]
      rfl
    rw [hbare r', hbare r]
    by_cases hmention : r.Mentions index tag
    · rw [get?_ofRegistry_of_mentions hindex hr tag h hmention,
        get?_ofRegistry_of_mentions hindex hr' tag h' ((hmentions h).mpr hmention)]
    · rw [get?_ofRegistry_of_not_mentions hindex hr tag h hmention,
        get?_ofRegistry_of_not_mentions hindex hr' tag h' (mt (hmentions h).mp hmention)]

variable {tag name value : String}

theorem related_iff_withoutAttribute (hindex : index.Exact) (hr : r.Keyed)
    (hname : index.contains name = true) (h : r.Carries tag name value) (a m b : String) :
    (ofRegistry index r).registry.Related a m b ↔
      (ofRegistry index (r.withoutAttribute tag name)).registry.Related a m b ∨
        a = tag ∧ m = name ∧ b ∈ splitTags value ∨
        b = tag ∧ m = index.opposite name ∧ a ∈ splitTags value := by
  have hr' := Registry.keyed_withoutAttribute r tag name hr
  have hback := Relationship.Index.opposite_opposite hindex
  -- Read from its own end the attribute is found under its name, and from the other ends under
  -- the opposite one, which is configured with it.
  have hfirst : a = tag ∧ m = name ∧ b ∈ splitTags value → index.contains m = true := by
    rintro ⟨-, rfl, -⟩
    exact hname
  have hsecond : b = tag ∧ m = index.opposite name ∧ a ∈ splitTags value ↔
      index.contains m = true ∧ b = tag ∧ index.opposite m = name ∧ a ∈ splitTags value := by
    constructor
    · rintro ⟨hb, rfl, ha⟩
      exact ⟨(hback name hname).1, hb, (hback name hname).2, ha⟩
    · rintro ⟨hm, hb, rfl, ha⟩
      exact ⟨hb, (hback m hm).2.symm, ha⟩
  rw [related_ofRegistry_iff hindex hr, related_ofRegistry_iff hindex hr', h.names_iff,
    h.names_iff, or_or_or_comm, and_or_left]
  refine or_congr_right ?_
  rw [and_or_left, and_iff_right_of_imp hfirst, hsecond]

/-- Where the tags of an attribute are declared, it brings no item. -/
theorem isDeclared_withoutAttribute (hindex : index.Exact) (hr : r.Keyed)
    (h : r.Carries tag name value) (hdeclares : ∀ x ∈ splitTags value, r.declares x = true)
    (x : String) :
    ((ofRegistry index (r.withoutAttribute tag name)).registry.get? x).map Item.isDeclared =
      ((ofRegistry index r).registry.get? x).map Item.isDeclared := by
  refine isDeclared_ofRegistry_congr hindex hr (Registry.keyed_withoutAttribute r tag name hr)
    (Registry.declares_withoutAttribute r tag name x) fun hx => ?_
  simp only [Registry.Mentions, h.names_undeclared_iff hdeclares hx]

/-- Where the tags of an attribute are declared, it brings no report. -/
theorem perm_reports_withoutAttribute (hindex : index.Exact) (hr : r.Keyed)
    (h : r.Carries tag name value) (hdeclares : ∀ x ∈ splitTags value, r.declares x = true) :
    (ofRegistry index (r.withoutAttribute tag name)).reports.Perm
      (ofRegistry index r).reports := by
  have hnodup (r : Registry) : (ofRegistry index r).reports.Nodup := nodup_eraseDups _
  refine (List.perm_ext_iff_of_nodup (hnodup _) (hnodup _)).mpr fun d => ?_
  rw [mem_reports hindex (Registry.keyed_withoutAttribute r tag name hr), mem_reports hindex hr]
  refine exists_congr fun source => exists_congr fun m => exists_congr fun x =>
    and_congr_right fun _ => ?_
  rw [Registry.declares_withoutAttribute, Registry.holder?_withoutAttribute]
  exact and_congr_left fun ⟨hx, _⟩ => h.names_undeclared_iff hdeclares hx source m

end Resolution

namespace Session

/-- The session before the attribute of the item is written. -/
def withoutAttribute (s : Session) (tag name : String) : Session :=
  { s with registry := s.registry.withoutAttribute tag name }

/-- A tag is taken unless it is blank or, trimmed, held by another declaration. -/
theorem register_eq_ok_iff (s : Session) (tag : String) (attributes : Attributes)
    (origin : Origin) :
    (s.register tag attributes origin).2 = .ok () ↔ Text.isBlankText tag = false ∧
      s.registry.declares (Text.trimmed tag) = false := by
  unfold register
  rw [Registry.declares_eq]
  cases hblank : Text.isBlankText tag with
  | true => simp
  | false =>
    cases hholder : s.registry.holder? (Text.trimmed tag) with
    | none =>
      have hfree := Registry.register_of_free s.registry
        (Item.declared (Text.trimmed tag) attributes origin) origin rfl hholder
      simp [hfree]
    | some first =>
      have hheld := Registry.register_of_held s.registry
        (Item.declared (Text.trimmed tag) attributes origin) origin first rfl hholder
      simp [hheld]

theorem get?_register_of_ok {s : Session} {tag : String} {attributes : Attributes}
    {origin : Origin} (h : (s.register tag attributes origin).2 = .ok ()) :
    (s.register tag attributes origin).1.registry.get? (Text.trimmed tag) =
      some (Item.declared (Text.trimmed tag) attributes origin) := by
  obtain ⟨hblank, hdeclares⟩ := (register_eq_ok_iff s tag attributes origin).mp h
  rw [Registry.declares_eq, Option.isSome_eq_false_iff, Option.isNone_iff_eq_none] at hdeclares
  have hfree := Registry.register_of_free s.registry
    (Item.declared (Text.trimmed tag) attributes origin) origin rfl hdeclares
  rw [register_not_blank s tag attributes origin hblank]
  simp only [hfree]
  rw [Registry.get?_put]
  exact if_pos rfl

/-- A tag that is taken can be referenced exactly if it has no comma. With a comma it stands in
no value. Without one, an attribute with this text, of any declaration and under any configured
name, links the declaration to the item of that tag, and to nothing else: against the session
without the attribute, a resolution finds this link and its opposite, the same items with the
same placeholders among them, and the same problems. -/
theorem tags_without_comma_referable {s : Session} (hs : s.Arises) (t : String) :
    (∀ attributes origin, (s.register t attributes origin).2 = .ok () →
      Text.isBlankText t = false ∧
      (s.register t attributes origin).1.registry.get? (Text.trimmed t) =
        some (Item.declared (Text.trimmed t) attributes origin)) ∧
    (',' ∈ t.toList → ∀ value, Text.trimmed t ∉ splitTags value) ∧
    (Text.isBlankText t = false → ',' ∉ t.toList →
      s.registry.declares (Text.trimmed t) = true →
      ∀ u name, s.index.contains name = true → s.registry.Carries u name t →
        let resolved := s.resolve.1
        let without := (s.withoutAttribute u name).resolve.1
        (resolved.registry.get? (Text.trimmed t)).map Item.withoutRelatives =
          (s.registry.get? (Text.trimmed t)).map Item.withoutRelatives ∧
        (∀ a m b, resolved.registry.Related a m b ↔ without.registry.Related a m b ∨
          a = u ∧ m = name ∧ b = Text.trimmed t ∨
          b = u ∧ m = s.index.opposite name ∧ a = Text.trimmed t) ∧
        (∀ tag, (without.registry.get? tag).map Item.isDeclared =
          (resolved.registry.get? tag).map Item.isDeclared) ∧
        without.diagnostics.all.Perm resolved.diagnostics.all) := by
  refine ⟨fun attributes origin h => ?_, fun hcomma value hmem => ?_,
    fun hblank hcomma hdeclares u name hname hcarries => ?_⟩
  · exact ⟨((register_eq_ok_iff ..).mp h).1, get?_register_of_ok h⟩
  · exact comma_notMem_of_mem_splitTags hmem (comma_mem_trimmed hcomma)
  · have hindex := hs.exact_index
    have hkeyed := hs.keyed
    have htags : splitTags t = [Text.trimmed t] := splitTags_of_comma_notMem hblank hcomma
    have hall : ∀ x ∈ splitTags t, s.registry.declares x = true := by
      rw [htags, List.forall_mem_singleton]
      exact hdeclares
    refine ⟨Resolution.get?_ofRegistry_of_declares hindex hkeyed _ hdeclares, fun a m b => ?_,
      Resolution.isDeclared_withoutAttribute hindex hkeyed hcarries hall,
      (Resolution.perm_reports_withoutAttribute hindex hkeyed hcarries hall).append_left _⟩
    have hrelated := Resolution.related_iff_withoutAttribute hindex hkeyed hname hcarries a m b
    rwa [htags, List.mem_singleton, List.mem_singleton] at hrelated

/-- Blanks around the tag and in it do no harm, and the undeclared tag in another attribute is
reported with or without the link. -/
theorem tags_without_comma_referable_of_blanks :
    ∃ start, ofRelationships [.between "parents" "children"] 1 = .ok start ∧
      (start.register " A B " ∅ ⟨"a.rst", 1⟩).2 = .ok () ∧
      let s := start.run [.register " A B " ∅ ⟨"a.rst", 1⟩,
        .register "U" (.ofList [("parents", " A B "), ("children", "C")]) ⟨"a.rst", 2⟩]
      s.resolve.1.registry.Related "U" "parents" "A B" ∧
        s.resolve.1.registry.Related "A B" "children" "U" ∧
        (s.withoutAttribute "U" "parents").resolve.1.diagnostics.all.Perm
          s.resolve.1.diagnostics.all := by
  have hstart : ofRelationships [.between "parents" "children"] 1 = .ok _ := rfl
  refine ⟨_, hstart, rfl, ?_⟩
  intro s
  have hs : s.Arises := (Arises.opened hstart).run _
  obtain ⟨-, -, hreferable⟩ := tags_without_comma_referable hs " A B "
  have hcarries : s.registry.Carries "U" "parents" " A B " := ⟨_, rfl, rfl, rfl⟩
  obtain ⟨-, hrelated, -, hreports⟩ := hreferable (by decide +kernel) (by decide)
    (by decide +kernel) "U" "parents" rfl hcarries
  exact ⟨(hrelated "U" "parents" "A B").mpr (Or.inr (Or.inl ⟨rfl, rfl, by decide +kernel⟩)),
    (hrelated "A B" "children" "U").mpr (Or.inr (Or.inr ⟨rfl, rfl, by decide +kernel⟩)), hreports⟩

/-- The tag `A,B` is taken, but a declaration that names it as a parent gets the parents `A` and
`B`, which are placeholders and reported. -/
theorem comma_tag_not_referable :
    ∃ start, ofRelationships [.between "parents" "children"] 1 = .ok start ∧
      (start.register "A,B" ∅ ⟨"a.rst", 1⟩).2 = .ok () ∧
      let s := start.run [.register "A,B" ∅ ⟨"a.rst", 1⟩,
        .register "U" (.ofList [("parents", "A,B")]) ⟨"a.rst", 2⟩]
      s.registry.declares "A,B" = true ∧ s.index.contains "parents" = true ∧
        s.registry.Carries "U" "parents" "A,B" ∧
        ¬ s.resolve.1.registry.Related "U" "parents" "A,B" ∧
        s.resolve.1.registry.Related "U" "parents" "A" ∧
        s.resolve.1.registry.get? "B" ≠ none ∧ s.resolve.1.registry.declares "B" = false ∧
        .unresolvedReference "A" "U" (some ⟨"a.rst", 2⟩) ∈ s.resolve.1.diagnostics.all := by
  refine ⟨_, rfl, rfl, by decide +kernel, rfl, ⟨_, rfl, rfl, rfl⟩, ?_, ⟨_, rfl, by decide +kernel⟩,
    by decide +kernel, by decide +kernel, by decide +kernel⟩
  rintro ⟨item, hget, hmem⟩
  cases hget
  revert hmem
  decide +kernel

end Session

end Traceability
