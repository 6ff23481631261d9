import Traceability.Proofs.Resolution.Outcome

/-!
The references that a resolution reports: one for each declared item and each undeclared tag
that it names, however many of its attributes and of the relationships name the tag.
-/

namespace Traceability

theorem nodup_eraseDups {α : Type} [BEq α] [LawfulBEq α] (l : List α) : l.eraseDups.Nodup := by
  match l with
  | [] => exact List.nodup_nil
  | a :: rest =>
    rw [List.eraseDups_cons, List.nodup_cons, List.mem_eraseDups]
    refine ⟨by simp, ?_⟩
    exact nodup_eraseDups _
termination_by l.length
decreasing_by
  have hle := List.length_filter_le (fun b => !b == a) rest
  simp only [List.length_cons]
  omega

theorem Diagnostic.unresolvedReference_inj {tag tag' referrer referrer' : String}
    {origin origin' : Option Origin}
    (h : unresolvedReference tag referrer origin = unresolvedReference tag' referrer' origin') :
    tag = tag' ∧ referrer = referrer' := by
  obtain ⟨-, htag, hmessage, -⟩ := Diagnostic.mk.inj h
  subst htag
  refine ⟨rfl, String.toList_injective ?_⟩
  have hcharacters := congrArg String.toList hmessage
  simpa [String.toList_append] using hcharacters

/-- The item names the tag in an attribute that is called like an end of a relationship. -/
def Item.Names (types : List Relationship) (i : Item) (tag : String) : Prop :=
  ∃ r ∈ types, ∃ name, (name = r.forward ∨ name = r.backward) ∧
    ∃ value, i.attributes.get? name = some value ∧ tag ∈ splitTags value

namespace Resolution

variable {index : Relationship.Index} {r : Registry}

/-- A declared item and a tag that it names, once for each pair, where the tag is not
declared. -/
def references (index : Relationship.Index) (r : Registry) : List (Item × String) :=
  (((mentions index r).filter fun m => !r.unresolved.declares m.tag).map fun m =>
    (m.referrer, m.tag)).eraseDups

theorem nodup_references (index : Relationship.Index) (r : Registry) :
    (references index r).Nodup := nodup_eraseDups _

theorem isDeclared_of_get?_unresolved {tag : String} {i : Item}
    (h : r.unresolved.get? tag = some i) : i.isDeclared = true := by
  obtain ⟨i', -, hdeclared, rfl⟩ := (Registry.get?_unresolved_eq_some_iff ..).mp h
  exact hdeclared

theorem mem_references (hindex : index.Exact) (hr : r.Keyed) (i : Item) (tag : String) :
    (i, tag) ∈ references index r ↔ r.unresolved.get? i.tag = some i ∧
      i.Names index.types tag ∧ r.declares tag = false := by
  have hmentions := Mention.mem_inRegistry hindex r.unresolved (Registry.keyed_unresolved r hr)
  simp only [references, mentions, List.mem_eraseDups, List.mem_map, List.mem_filter, hmentions,
    Registry.declares_unresolved, Bool.not_eq_true', Prod.mk.injEq]
  constructor
  · rintro ⟨m, ⟨⟨hopposite, hget, -, hvalue⟩, hdeclares⟩, rfl, rfl⟩
    obtain ⟨r', hr', hpairs⟩ := (hindex _ _).mp hopposite
    have hname := (r'.exists_pairs_iff m.outgoing).mp ⟨_, hpairs⟩
    exact ⟨hget, ⟨r', hr', m.outgoing, hname, hvalue⟩, hdeclares⟩
  · rintro ⟨hget, ⟨r', hr', name, hname, hvalue⟩, hdeclares⟩
    obtain ⟨other, hpairs⟩ := (r'.exists_pairs_iff name).mpr hname
    have hopposite := (hindex name other).mpr ⟨r', hr', hpairs⟩
    exact ⟨⟨i, tag, name, other⟩,
      ⟨⟨hopposite, hget, isDeclared_of_get?_unresolved hget, hvalue⟩, hdeclares⟩, rfl, rfl⟩

/-- A report tells its reference: the messages of different ones differ. -/
theorem perm_reports (hindex : index.Exact) (hr : r.Keyed) :
    (ofRegistry index r).reports.Perm ((references index r).map fun (i, tag) =>
      Diagnostic.unresolvedReference tag i.tag i.origin) := by
  have hnodup : ((references index r).map fun (i, tag) =>
      Diagnostic.unresolvedReference tag i.tag i.origin).Nodup := by
    refine List.Nodup.map_on ?_ (nodup_references index r)
    rintro ⟨i, tag⟩ hi ⟨j, tag'⟩ hj heq
    obtain ⟨rfl, htag⟩ := Diagnostic.unresolvedReference_inj heq
    have hgeti := ((mem_references hindex hr i tag).mp hi).1
    have hgetj := ((mem_references hindex hr j tag).mp hj).1
    rw [htag, hgetj, Option.some.injEq] at hgeti
    rw [hgeti]
  refine (List.perm_ext_iff_of_nodup (nodup_eraseDups _) hnodup).mpr fun d => ?_
  simp only [references, mentions, List.mem_eraseDups, List.mem_map, Prod.exists, Prod.mk.injEq]
  constructor
  · rintro ⟨m, hm, rfl⟩
    exact ⟨m.referrer, m.tag, ⟨m, hm, rfl, rfl⟩, rfl⟩
  · rintro ⟨_, _, ⟨m, hm, rfl, rfl⟩, rfl⟩
    exact ⟨m, hm, rfl⟩

end Resolution

end Traceability
