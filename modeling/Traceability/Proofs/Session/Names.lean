import Traceability.Proofs.Filter.Dependence
import Traceability.Proofs.Filter.Names
import Traceability.Proofs.Session.Run

/-!
Which attributes of an item filters can read. A name is reported when an item is registered
if it is no word, and then no filter reads its value. The name `tag` is not reported, but it
stands for the tag of the item, so that an attribute of that name is read by no filter.
-/

namespace Traceability

/-- The item as it is without one of its attributes. -/
def Item.without (i : Item) (name : String) : Item :=
  { i with attributes := i.attributes.erase name }

namespace Filter

/-- A filter reads an attribute of an item if its outcome is another one without it. -/
def Expression.Reads (e : Expression) (i : Item) (name : String) : Prop :=
  e.evaluate (i.without name).value? ≠ e.evaluate i.value?

/-- Some filter reads the attribute. -/
def Readable (i : Item) (name : String) : Prop :=
  ∃ text e, Expression.parse text = .ok e ∧ e.Reads i name

/-- Some filter has the name among its identifiers. -/
def Nameable (name : String) : Prop :=
  ∃ text e, Expression.parse text = .ok e ∧ name ∈ e.identifiers

end Filter

namespace Item

variable (i : Item) {name other : String}

theorem value?_tag : i.value? "tag" = some i.tag := rfl

theorem value?_of_ne (h : name ≠ "tag") : i.value? name = i.attributes.get? name := by
  rw [value?, if_neg (by simpa using h)]

theorem value?_without_tag : (i.without "tag").value? = i.value? := by
  funext other
  by_cases hother : other = "tag"
  · rw [hother, value?_tag, value?_tag]
    rfl
  · rw [value?_of_ne _ hother, value?_of_ne _ hother, without, SortedMap.get?_erase, if_neg hother]

theorem value?_without_self (h : name ≠ "tag") : (i.without name).value? name = none := by
  rw [value?_of_ne _ h, without, SortedMap.get?_erase, if_pos rfl]

theorem value?_without_of_ne (h : other ≠ name) : (i.without name).value? other = i.value? other := by
  by_cases hother : other = "tag"
  · rw [hother, value?_tag, value?_tag]
    rfl
  · rw [value?_of_ne _ hother, value?_of_ne _ hother, without, SortedMap.get?_erase, if_neg h]

end Item

namespace Filter

variable {i : Item} {name : String}

/-- An attribute under the name of the tag is hidden by it. -/
theorem not_reads_tag (e : Expression) (i : Item) : ¬ e.Reads i "tag" := by
  intro hreads
  apply hreads
  rw [i.value?_without_tag]

/-- Filters read no attributes but those that they name. -/
theorem mem_identifiers_of_reads {e : Expression} (h : e.Reads i name) : name ∈ e.identifiers := by
  by_contra hname
  apply h
  apply e.evaluate_congr
  intro other hother
  apply i.value?_without_of_ne
  intro heq
  rw [heq] at hother
  exact hname hother

/-- The value of an attribute is read by the filter that compares it to the empty text. -/
theorem reads_asksEmpty (htag : name ≠ "tag") (hname : name ∈ i.attributes.keys) :
    (asksEmpty name).Reads i name := by
  obtain ⟨value, hvalue⟩ := Option.isSome_iff_exists.mp (SortedMap.mem_keys.mp hname)
  have hwith : (asksEmpty name).evaluate i.value? = .ok (value == "") := by
    have hfound : i.value? name = some value := by
      rw [i.value?_of_ne htag, hvalue]
    simp [asksEmpty, Expression.evaluate, Comparison.evaluate, Operand.bind, hfound,
      evaluateChain, Except.map, Comparator.apply, Value.equal]
  have hwithout : (asksEmpty name).evaluate (i.without name).value? = .error ⟨name⟩ := by
    simp [asksEmpty, Expression.evaluate, Comparison.evaluate, Operand.bind,
      i.value?_without_self htag]
  rw [Expression.Reads, hwith, hwithout]
  simp

/-- The attributes that some filter reads are those with a name that filters can have among
their identifiers, save the name of the tag. -/
theorem readable_iff (hname : name ∈ i.attributes.keys) :
    Readable i name ↔ Nameable name ∧ name ≠ "tag" := by
  constructor
  · intro hreadable
    obtain ⟨text, e, hparse, hreads⟩ := hreadable
    refine ⟨⟨text, e, hparse, mem_identifiers_of_reads hreads⟩, ?_⟩
    intro htag
    rw [htag] at hreads
    exact not_reads_tag e i hreads
  · intro hparts
    obtain ⟨hnameable, htag⟩ := hparts
    obtain ⟨hword, hkeyword⟩ := (exists_mem_identifiers_iff name).mp hnameable
    exact ⟨_, _, parse_asksEmpty hword hkeyword, reads_asksEmpty htag hname⟩

theorem isIdentifier_iff_nameable (h : name ∉ keywords) :
    isIdentifier name.toList = true ↔ Nameable name := by
  rw [Nameable, exists_mem_identifiers_iff, and_iff_left h]

end Filter

theorem Diagnostic.invalidAttributeName_inj {tag name name' : String} {origin : Origin}
    (h : invalidAttributeName tag name origin = invalidAttributeName tag name' origin) :
    name = name' := by
  obtain ⟨-, -, hmessage, -⟩ := Diagnostic.mk.inj h
  have hcharacters := congrArg String.toList hmessage
  simp only [String.toList_append, List.append_assoc, List.append_cancel_left_eq,
    List.append_cancel_right_eq] at hcharacters
  exact String.toList_injective hcharacters

namespace Session

theorem mem_nameReports {tag name : String} {attributes : Attributes} {origin : Origin} :
    Diagnostic.invalidAttributeName tag name origin ∈ nameReports tag attributes origin ↔
      name ∈ attributes.keys ∧ Filter.isIdentifier name.toList = false := by
  rw [nameReports, List.mem_map]
  constructor
  · intro hreport
    obtain ⟨name', hname', hreport⟩ := hreport
    obtain rfl := Diagnostic.invalidAttributeName_inj hreport
    simpa [List.mem_filter] using hname'
  · intro hname
    exact ⟨name, by simpa [List.mem_filter] using hname, rfl⟩

/-- A registration reports an attribute name, beside a duplicate, exactly if it is no word. -/
theorem mem_reports {tag name : String} {attributes : Attributes} {origin : Origin}
    (duplicate : Option DuplicateTag) :
    Diagnostic.invalidAttributeName tag name origin ∈
        nameReports tag attributes origin ++ duplicateReports duplicate ↔
      name ∈ attributes.keys ∧ Filter.isIdentifier name.toList = false := by
  have hother : Diagnostic.invalidAttributeName tag name origin ∉ duplicateReports duplicate := by
    cases duplicate with
    | none => exact List.not_mem_nil
    | some d => simp [duplicateReports, Diagnostic.duplicateTag, Diagnostic.invalidAttributeName]
  rw [List.mem_append, or_iff_left hother, mem_nameReports]

/-- Registering an item reports no attribute that a filter can name or read. Save for the
keywords of filters it reports all the others, but for the one that is called like the tag:
that name stands for the tag, and the value of the attribute is hidden. -/
theorem reported_iff_unreadable (s : Session) (tag : String) (attributes : Attributes)
    (origin : Origin) (h : Text.isBlankText tag = false) :
    let item := Item.declared (Text.trimmed tag) attributes origin
    (∃ reports, (s.register tag attributes origin).1.diagnostics.registration =
        s.diagnostics.registration ++ reports ∧
      ∀ name ∈ attributes.keys,
        let reported := Diagnostic.invalidAttributeName item.tag name origin ∈ reports
        (reported → ¬ Filter.Nameable name ∧ ¬ Filter.Readable item name) ∧
        (name ∉ Filter.keywords → (reported ↔ ¬ Filter.Nameable name)) ∧
        (name ∉ Filter.keywords → name ≠ "tag" → (reported ↔ ¬ Filter.Readable item name)) ∧
        (name = "tag" → ¬ reported ∧ ¬ Filter.Readable item name)) ∧
    item.value? "tag" = some item.tag ∧
    ∀ name, name ∉ Filter.keywords →
      (Filter.isIdentifier name.toList = true ↔ Filter.Nameable name) := by
  intro item
  refine ⟨⟨nameReports item.tag attributes origin ++
    duplicateReports (s.registry.register item).2, ?_, ?_⟩, rfl, ?_⟩
  · rw [register_not_blank s tag attributes origin h]
    rfl
  · intro name hname reported
    have hreported : reported ↔ Filter.isIdentifier name.toList = false := by
      show Diagnostic.invalidAttributeName item.tag name origin ∈ _ ↔ _
      rw [mem_reports, and_iff_right hname]
    have hreadable : Filter.Readable item name ↔ Filter.Nameable name ∧ name ≠ "tag" :=
      Filter.readable_iff hname
    have hunnamed (hkeyword : name ∉ Filter.keywords) : reported ↔ ¬ Filter.Nameable name := by
      rw [hreported, ← Filter.isIdentifier_iff_nameable hkeyword, Bool.not_eq_true]
    refine ⟨?_, hunnamed, ?_, ?_⟩
    · intro hreport
      have hnot : ¬ Filter.Nameable name := by
        intro hnameable
        have hword := ((Filter.exists_mem_identifiers_iff name).mp hnameable).1
        rw [hreported.mp hreport] at hword
        contradiction
      refine ⟨hnot, ?_⟩
      rw [hreadable]
      exact fun hparts => hnot hparts.1
    · intro hkeyword htag
      rw [hreadable, and_iff_left htag]
      exact hunnamed hkeyword
    · intro htag
      refine ⟨?_, ?_⟩
      · rw [hreported, htag]
        decide
      · rw [hreadable]
        exact fun hparts => hparts.2 htag
  · intro name hkeyword
    exact Filter.isIdentifier_iff_nameable hkeyword

/-- The attribute with a blank in its name is out of reach and reported, and the one that is
called like the tag is hidden without a report. -/
theorem reported_iff_unreadable_of_blank :
    let attributes : Attributes := .ofList [("due date", "May"), ("state", "open"), ("tag", "y")]
    let item := Item.declared "A" attributes ⟨"a.rst", 1⟩
    let s := ((empty .empty 1).register " A " attributes ⟨"a.rst", 1⟩).1
    s.diagnostics.registration = [Diagnostic.invalidAttributeName "A" "due date" ⟨"a.rst", 1⟩] ∧
      ¬ Filter.Readable item "due date" ∧ Filter.Readable item "state" ∧
      ¬ Filter.Readable item "tag" := by
  intro attributes item s
  have hblank : Text.isBlankText " A " = false := by decide +kernel
  have htrimmed : Text.trimmed " A " = "A" := by decide +kernel
  have hregistration : s.diagnostics.registration =
      [Diagnostic.invalidAttributeName "A" "due date" ⟨"a.rst", 1⟩] := by decide +kernel
  obtain ⟨⟨reports, hreports, hnames⟩, -, -⟩ :=
    reported_iff_unreadable (empty .empty 1) " A " attributes ⟨"a.rst", 1⟩ hblank
  obtain rfl : reports = [Diagnostic.invalidAttributeName "A" "due date" ⟨"a.rst", 1⟩] :=
    hreports.symm.trans hregistration
  rw [htrimmed] at hnames
  have hdate := (hnames "due date" (by decide +kernel)).1
  have hstate := (hnames "state" (by decide +kernel)).2.2.1
  have htag := (hnames "tag" (by decide +kernel)).2.2.2
  refine ⟨hregistration, (hdate (List.mem_singleton_self _)).2, ?_, (htag rfl).2⟩
  have hunreported : Diagnostic.invalidAttributeName "A" "state" ⟨"a.rst", 1⟩ ∉
      [Diagnostic.invalidAttributeName "A" "due date" ⟨"a.rst", 1⟩] := by decide +kernel
  rw [← not_not (a := Filter.Readable item "state"), ← hstate (by decide) (by decide)]
  exact hunreported

/-- Neither of the two attributes is read by a filter, and neither is reported. -/
theorem hidden_names_not_reported :
    let attributes : Attributes := .ofList [("and", "x"), ("tag", "y")]
    ((empty .empty 1).register "A" attributes ⟨"a.rst", 1⟩).1.diagnostics.all = [] ∧
      (∀ name ∈ attributes.keys,
        ¬ Filter.Readable (Item.declared "A" attributes ⟨"a.rst", 1⟩) name) ∧
      Filter.isIdentifier "and".toList = true ∧ ¬ Filter.Nameable "and" := by
  intro attributes
  have hand : ¬ Filter.Nameable "and" := by
    intro hnameable
    have hkeyword := ((Filter.exists_mem_identifiers_iff "and").mp hnameable).2
    exact hkeyword (by decide)
  refine ⟨by decide +kernel, ?_, by decide, hand⟩
  intro name hname
  rw [Filter.readable_iff hname]
  have hkeys : attributes.keys = ["and", "tag"] := by decide +kernel
  rw [hkeys, List.mem_cons, List.mem_singleton] at hname
  rcases hname with rfl | rfl
  · exact fun hparts => hand hparts.1
  · exact fun hparts => hparts.2 rfl

end Session

end Traceability
