import Traceability.Proofs.Registry.Refinement
import Traceability.Proofs.Resolution.References
import Traceability.Proofs.Session.Arising

/-!
The problems that a check finds. After some registrations and a resolution they are the
declarations of tags that were declared before, the attribute names that no filter can read,
and the undeclared tags that the items name, each of them reported once.
-/

namespace Traceability

namespace Filter

/-- A letter from A to Z or from a to z, or an underscore. -/
def NameStart (c : Char) : Prop := 'A' ≤ c ∧ c ≤ 'Z' ∨ 'a' ≤ c ∧ c ≤ 'z' ∨ c = '_'

/-- Names of the form `[A-Za-z_][A-Za-z0-9_]*`. -/
def IsName (name : String) : Prop :=
  ∃ c rest, name.toList = c :: rest ∧ NameStart c ∧
    ∀ x ∈ rest, NameStart x ∨ '0' ≤ x ∧ x ≤ '9'

theorem le_iff_toNat (c d : Char) : c ≤ d ↔ c.toNat ≤ d.toNat := by
  rw [Char.le_def, UInt32.le_iff_toNat_le]
  rfl

theorem isWordStart_iff (c : Char) : isWordStart c = true ↔ NameStart c := by
  simp only [isWordStart, Text.isAsciiLetter, NameStart, le_iff_toNat, Bool.or_eq_true,
    Bool.and_eq_true, decide_eq_true_eq, beq_iff_eq]
  rw [or_comm (a := 97 ≤ c.toNat ∧ c.toNat ≤ 122), or_assoc]
  rfl

theorem isWordCharacter_iff (c : Char) :
    isWordCharacter c = true ↔ NameStart c ∨ '0' ≤ c ∧ c ≤ '9' := by
  simp only [isWordCharacter, Text.isDigit, le_iff_toNat, Bool.or_eq_true, Bool.and_eq_true,
    decide_eq_true_eq, isWordStart_iff]
  rfl

theorem isIdentifier_iff (name : String) : isIdentifier name.toList = true ↔ IsName name := by
  unfold IsName
  cases name.toList with
  | nil => simp [isIdentifier]
  | cons c rest =>
    simp only [isIdentifier, Bool.and_eq_true, List.all_eq_true, isWordStart_iff,
      isWordCharacter_iff]
    constructor
    · intro h
      exact ⟨c, rest, rfl, h⟩
    · rintro ⟨c', rest', heq, h⟩
      cases heq
      exact h

instance (name : String) : Decidable (IsName name) := decidable_of_iff _ (isIdentifier_iff name)

end Filter

namespace Registry.Log

/-- A declaration whose tag is not repeated holds its tag. -/
theorem first?_of_nodup {log : Log} (hnodup : (log.map Item.tag).Nodup) {i : Item}
    (hi : i ∈ log) : log.first? i.tag = some i := by
  have hclaims := tail_claims_of_nodup hnodup i.tag
  have hmem : i ∈ log.claims i.tag := (mem_claims ..).mpr ⟨hi, rfl⟩
  rw [← head?_claims]
  cases hc : log.claims i.tag with
  | nil =>
    rw [hc] at hmem
    contradiction
  | cons first rest =>
    rw [hc, List.tail_cons] at hclaims
    rw [hc, hclaims, List.mem_singleton] at hmem
    rw [hmem, List.head?_cons]

end Registry.Log

namespace Session

/-- A declaration as it is registered, with its tag as it is written. -/
structure Registration where
  tag : String
  attributes : Attributes
  origin : Origin

namespace Registration

def event (c : Registration) : Event := .register c.tag c.attributes c.origin

def item (c : Registration) : Item := Item.declared (Text.trimmed c.tag) c.attributes c.origin

def duplicateReport (c : Registration) : Diagnostic := .duplicateTag c.item.tag c.origin

/-- A report for each attribute name that has not the form of a name. -/
def nameReports (c : Registration) : List Diagnostic :=
  (c.attributes.keys.filter fun name => !decide (Filter.IsName name)).map fun name =>
    .invalidAttributeName c.item.tag name c.origin

/-- The registrations whose tag was registered before, by some earlier ones or among
themselves. -/
def repeated (earlier : List String) : List Registration → List Registration
  | [] => []
  | c :: rest =>
      (if c.item.tag ∈ earlier then [c] else []) ++ repeated (c.item.tag :: earlier) rest

theorem repeated_append (earlier : List String) (calls : List Registration) (c : Registration) :
    repeated earlier (calls ++ [c]) = repeated earlier calls ++
      if c.item.tag ∈ earlier ∨ c.item.tag ∈ (calls.map item).map Item.tag then [c] else [] := by
  induction calls generalizing earlier with
  | nil => simp [repeated]
  | cons d calls ih =>
    have hmem : (c.item.tag ∈ d.item.tag :: earlier ∨
          c.item.tag ∈ (calls.map item).map Item.tag) ↔
        (c.item.tag ∈ earlier ∨ c.item.tag ∈ ((d :: calls).map item).map Item.tag) := by
      rw [List.map_cons, List.map_cons, List.mem_cons, List.mem_cons, or_assoc, or_left_comm]
    rw [List.cons_append, repeated, ih, repeated, List.append_assoc]
    simp only [hmem]

theorem repeated_eq_nil_iff (earlier : List String) (calls : List Registration) :
    repeated earlier calls = [] ↔
      ((calls.map item).map Item.tag).Nodup ∧ ∀ c ∈ calls, c.item.tag ∉ earlier := by
  induction calls generalizing earlier with
  | nil => simp [repeated]
  | cons c calls ih =>
    have hfirst : (if c.item.tag ∈ earlier then [c] else []) = [] ↔ c.item.tag ∉ earlier := by
      split <;> simp [*]
    have hrest : (∀ d ∈ calls, d.item.tag ∉ c.item.tag :: earlier) ↔
        c.item.tag ∉ (calls.map item).map Item.tag ∧ ∀ d ∈ calls, d.item.tag ∉ earlier := by
      simp only [List.mem_cons, not_or, List.map_map, List.mem_map, Function.comp, not_exists,
        not_and, imp_and, forall_and]
    rw [repeated, List.append_eq_nil_iff, hfirst, ih, hrest, List.map_cons, List.map_cons,
      List.nodup_cons, List.forall_mem_cons]
    tauto

theorem nameReports_eq_nil_iff (c : Registration) :
    c.nameReports = [] ↔ ∀ name ∈ c.attributes.keys, Filter.IsName name := by
  simp [nameReports, List.filter_eq_nil_iff]

end Registration

/-- The session has registered the declarations and reported what is wrong with them. -/
structure Records (s : Session) (calls : List Registration) : Prop where
  keeps : s.registry.Keeps (calls.map Registration.item)
  reports : s.diagnostics.registration.Perm
    ((Registration.repeated [] calls).map Registration.duplicateReport ++
      calls.flatMap Registration.nameReports)

theorem nameReports_eq (c : Registration) :
    nameReports (Text.trimmed c.tag) c.attributes c.origin = c.nameReports := by
  have hvalid (name : String) : decide (Filter.IsName name) = Filter.isIdentifier name.toList := by
    rw [Bool.eq_iff_iff, decide_eq_true_iff, Filter.isIdentifier_iff]
  simp only [nameReports, Registration.nameReports, hvalid]
  rfl

variable {s : Session} {calls : List Registration}

theorem Records.duplicateReports_eq (h : s.Records calls) (c : Registration) :
    duplicateReports (s.registry.register c.item).2 =
      (if c.item.tag ∈ (calls.map Registration.item).map Item.tag then [c] else []).map
        Registration.duplicateReport := by
  have hfirst : Registry.Log.first? (calls.map Registration.item) c.item.tag = none ↔
      c.item.tag ∉ (calls.map Registration.item).map Item.tag := by
    rw [Registry.Log.first?_eq_none_iff, List.mem_map]
    simp only [not_exists, not_and, ne_eq]
  rcases h.keeps.register_answer c.item c.origin rfl with
    ⟨hfree, hanswer⟩ | ⟨first, earlier, hheld, -, hanswer, -⟩
  · rw [hanswer, if_neg (hfirst.mp hfree)]
    rfl
  · have hrepeated : c.item.tag ∈ (calls.map Registration.item).map Item.tag := by
      by_contra hnone
      rw [hfirst.mpr hnone] at hheld
      contradiction
    rw [hanswer, if_pos hrepeated]
    rfl

theorem Records.register (h : s.Records calls) (c : Registration)
    (hc : Text.isBlankText c.tag = false) : (s.after c.event).Records (calls ++ [c]) := by
  have hafter : s.after c.event = (s.register c.tag c.attributes c.origin).1 := rfl
  refine ⟨?_, ?_⟩
  · have hkeeps := keeps_register h.keeps c.tag c.attributes c.origin
    rw [declaredItems, hc] at hkeeps
    rw [hafter, List.map_append]
    exact hkeeps
  · rw [hafter, register_not_blank s c.tag c.attributes c.origin hc, nameReports_eq]
    have hduplicates := h.duplicateReports_eq c
    simp only [Diagnostics.record]
    rw [Registration.item] at hduplicates
    rw [hduplicates, Registration.repeated_append, List.flatMap_append, List.map_append]
    simp only [List.not_mem_nil, false_or, List.flatMap_singleton]
    refine (h.reports.append_right _).trans ?_
    rw [List.append_assoc, List.append_assoc, ← List.append_assoc (calls.flatMap _)]
    exact List.perm_append_comm.append_left _

theorem records_run {index : Relationship.Index} {capacity : Nat} (calls : List Registration)
    (hcalls : ∀ c ∈ calls, Text.isBlankText c.tag = false) :
    ((empty index capacity).run (calls.map Registration.event)).Records calls := by
  induction calls using List.reverseRecOn with
  | nil => exact ⟨Registry.keeps_empty, List.Perm.nil⟩
  | append_singleton calls c ih =>
    rw [List.forall_mem_append] at hcalls
    rw [List.map_append, List.map_singleton, run_append_singleton]
    exact (ih hcalls.1).register c (hcalls.2 c List.mem_cons_self)

theorem Records.get?_unresolved (h : s.Records calls) (tag : String) :
    s.registry.unresolved.get? tag =
      Registry.Log.first? (calls.map Registration.item) tag := by
  rw [h.keeps.holds_first, Registry.Log.head?_claims]
  cases hfirst : Registry.Log.first? (calls.map Registration.item) tag with
  | none => rfl
  | some i =>
    obtain ⟨c, -, rfl⟩ := List.mem_map.mp (List.mem_of_find?_eq_some hfirst)
    rfl

theorem Records.declares_eq_false_iff (h : s.Records calls) (tag : String) :
    s.registry.declares tag = false ↔ ∀ i ∈ calls.map Registration.item, i.tag ≠ tag := by
  rw [← Registry.isSome_get?_unresolved, h.get?_unresolved, Option.isSome_eq_false_iff,
    Option.isNone_iff_eq_none, Registry.Log.first?_eq_none_iff]

/-- The problems found are exactly these: a duplicate for each registration of a tag that was
registered before, an invalid name for each attribute name of a registration that has not the
form of a name, and an unresolved reference for each item that holds its tag and each
undeclared tag that it names. -/
theorem check_exact {types : List Relationship} {capacity : Nat} {start : Session}
    (hstart : ofRelationships types capacity = .ok start) (calls : List Registration)
    (hcalls : ∀ c ∈ calls, Text.isBlankText c.tag = false) :
    let log : Registry.Log := calls.map Registration.item
    let found := (start.run (calls.map Registration.event)).resolve.1.diagnostics.all
    (∃ references : List (Item × String), references.Nodup ∧
      (∀ i tag, (i, tag) ∈ references ↔
        log.first? i.tag = some i ∧ i.Names types tag ∧ ∀ j ∈ log, j.tag ≠ tag) ∧
      found.Perm ((Registration.repeated [] calls).map Registration.duplicateReport ++
        calls.flatMap Registration.nameReports ++
        references.map fun (i, tag) => Diagnostic.unresolvedReference tag i.tag i.origin)) ∧
    (found = [] ↔ (log.map Item.tag).Nodup ∧
      (∀ c ∈ calls, ∀ name ∈ c.attributes.keys, Filter.IsName name) ∧
      ∀ i ∈ log, ∀ tag, i.Names types tag → ∃ j ∈ log, j.tag = tag) := by
  intro log found
  obtain ⟨index, htypes, rfl⟩ := exists_index_of_ofRelationships hstart
  let s := (empty index capacity).run (calls.map Registration.event)
  have hrecords : s.Records calls := records_run calls hcalls
  have hindex : s.index.Exact := by
    rw [index_run]
    exact Relationship.Index.exact_ofList htypes
  have hnamed : s.index.types = types := by
    rw [index_run]
    exact Relationship.Index.types_ofList htypes
  let references := Resolution.references s.index s.registry
  have hmem (i : Item) (tag : String) : (i, tag) ∈ references ↔
      log.first? i.tag = some i ∧ i.Names types tag ∧ ∀ j ∈ log, j.tag ≠ tag := by
    rw [Resolution.mem_references hindex hrecords.keeps.keyed, hrecords.get?_unresolved, hnamed,
      hrecords.declares_eq_false_iff]
  have hfound : found.Perm ((Registration.repeated [] calls).map Registration.duplicateReport ++
      calls.flatMap Registration.nameReports ++
      references.map fun (i, tag) => Diagnostic.unresolvedReference tag i.tag i.origin) :=
    hrecords.reports.append (Resolution.perm_reports hindex hrecords.keeps.keyed)
  refine ⟨⟨references, Resolution.nodup_references .., hmem, hfound⟩, ?_⟩
  have hnone : found = [] ↔ Registration.repeated [] calls = [] ∧
      calls.flatMap Registration.nameReports = [] ∧ references = [] := by
    rw [← List.perm_nil, hfound.congr_left, List.perm_nil, List.append_eq_nil_iff,
      List.append_eq_nil_iff, List.map_eq_nil_iff, List.map_eq_nil_iff, and_assoc]
  have hnames : calls.flatMap Registration.nameReports = [] ↔
      ∀ c ∈ calls, ∀ name ∈ c.attributes.keys, Filter.IsName name := by
    simp only [List.flatMap_eq_nil_iff, Registration.nameReports_eq_nil_iff]
  have hrepeated : Registration.repeated [] calls = [] ↔ (log.map Item.tag).Nodup := by
    rw [Registration.repeated_eq_nil_iff]
    simp [log]
  rw [hnone, hnames, hrepeated]
  refine and_congr_right fun hnodup => and_congr_right fun _ => ?_
  rw [List.eq_nil_iff_forall_not_mem]
  constructor
  · intro hempty i hi tag htag
    by_contra hundeclared
    refine hempty (i, tag) ((hmem i tag).mpr ⟨Registry.Log.first?_of_nodup hnodup hi, htag, ?_⟩)
    intro j hj heq
    exact hundeclared ⟨j, hj, heq⟩
  · rintro hdeclared ⟨i, tag⟩ hreference
    obtain ⟨hfirst, htag, hundeclared⟩ := (hmem i tag).mp hreference
    obtain ⟨j, hj, heq⟩ := hdeclared i (List.mem_of_find?_eq_some hfirst) tag htag
    exact hundeclared j hj heq

/-- A tag that an item names three times, under two relationships and twice in one attribute,
is one unresolved reference of it, and a rejected declaration has its names checked. -/
theorem check_exact_of_repetition :
    ∃ start, ofRelationships [.between "parents" "children", .symmetric "sibling"] 1 =
        .ok start ∧
      let calls : List Registration :=
        [⟨" A", .ofList [("parents", "B, B"), ("sibling", "B")], ⟨"a.rst", 1⟩⟩,
          ⟨"A ", .ofList [("9x", ""), ("parents", "C")], ⟨"b.rst", 7⟩⟩]
      let found := (start.run (calls.map Registration.event)).resolve.1.diagnostics.all
      found.length = 3 ∧ .duplicateTag "A" ⟨"b.rst", 7⟩ ∈ found ∧
        .invalidAttributeName "A" "9x" ⟨"b.rst", 7⟩ ∈ found ∧
        .unresolvedReference "B" "A" (some ⟨"a.rst", 1⟩) ∈ found := by
  have hstart : ofRelationships
      [.between "parents" "children", .symmetric "sibling"] 1 = .ok _ := rfl
  refine ⟨_, hstart, ?_⟩
  intro calls found
  obtain ⟨⟨references, -, hmem, hfound⟩, -⟩ := check_exact hstart calls (by decide)
  have hreference : (⟨"A", .ofList [("parents", "B, B"), ("sibling", "B")], ∅,
      some ⟨"a.rst", 1⟩⟩, "B") ∈ references := by
    refine (hmem _ _).mpr ⟨rfl, ?_, by decide⟩
    exact ⟨_, List.mem_cons_self, "parents", Or.inl rfl, _, rfl, by decide⟩
  refine ⟨by decide, hfound.mem_iff.mpr ?_, hfound.mem_iff.mpr ?_, hfound.mem_iff.mpr ?_⟩
  · exact List.mem_append_left _ (List.mem_append_left _ (by decide))
  · exact List.mem_append_left _ (List.mem_append_right _ (by decide))
  · exact List.mem_append_right _ (List.mem_map.mpr ⟨_, hreference, rfl⟩)

end Session

end Traceability
