import Traceability.Registry
import Traceability.Proofs.Sorted.Lookup

/-!
What every operation on a register does to its two stores: the item under each tag,
and the declarations that wait for each tag. A purge frees the tags of a document
and hands each of them to the first declaration that is left waiting for it.
-/

namespace Traceability

namespace Item

@[simp]
theorem tag_withoutRelatives (i : Item) : i.withoutRelatives.tag = i.tag := rfl

@[simp]
theorem origin_withoutRelatives (i : Item) : i.withoutRelatives.origin = i.origin := rfl

@[simp]
theorem attributes_withoutRelatives (i : Item) : i.withoutRelatives.attributes = i.attributes := rfl

@[simp]
theorem isDeclared_withoutRelatives (i : Item) : i.withoutRelatives.isDeclared = i.isDeclared := rfl

@[simp]
theorem withoutRelatives_withoutRelatives (i : Item) :
    i.withoutRelatives.withoutRelatives = i.withoutRelatives := rfl

@[simp]
theorem withoutRelatives_addRelative (i : Item) (name tag : String) :
    (i.addRelative name tag).withoutRelatives = i.withoutRelatives := rfl

theorem isDeclared_iff (i : Item) : i.isDeclared = true ↔ ∃ o, i.origin = some o :=
  Option.isSome_iff_exists

theorem isFrom_iff (i : Item) (document : String) :
    i.isFrom document = true ↔ ∃ o, i.origin = some o ∧ o.document = document := by
  unfold isFrom
  cases i.origin <;> simp

end Item

namespace Registry

/-- Every item stands under its own tag. -/
def Keyed (r : Registry) : Prop := ∀ tag item, r.get? tag = some item → item.tag = tag

/-- The declarations that wait for a tag, the earliest first. -/
def waiting (r : Registry) (tag : String) : List Item :=
  r.shadowed.filter fun item => item.tag == tag

theorem get?_put (r : Registry) (item : Item) (tag : String) :
    (r.put item).get? tag = if tag = item.tag then some item else r.get? tag :=
  SortedMap.get?_insert r.items item.tag tag item

theorem get?_ensure (r : Registry) (t tag : String) :
    (r.ensure t).get? tag =
      if tag = t then some ((r.get? t).getD (Item.placeholder t)) else r.get? tag := by
  unfold ensure contains SortedMap.contains
  change (if (r.get? t).isSome then r else r.put (Item.placeholder t)).get? tag = _
  cases h : r.get? t with
  | none => simp [get?_put, Item.placeholder]
  | some item =>
    by_cases ht : tag = t
    · simp [ht, h]
    · simp [ht]

theorem shadowed_ensure (r : Registry) (t : String) : (r.ensure t).shadowed = r.shadowed := by
  unfold ensure
  split <;> rfl

theorem get?_addRelative (r : Registry) (t name relative tag : String) :
    (r.addRelative t name relative).get? tag =
      if tag = t then (r.get? t).map fun item => item.addRelative name relative
      else r.get? tag :=
  SortedMap.get?_modify r.items t tag _

theorem get?_unresolved (r : Registry) (tag : String) :
    r.unresolved.get? tag =
      ((r.get? tag).filter Item.isDeclared).map Item.withoutRelatives := by
  simp [unresolved, get?]

@[simp]
theorem shadowed_unresolved (r : Registry) : r.unresolved.shadowed = r.shadowed := rfl

theorem ext_get? {r r' : Registry} (hitems : ∀ tag, r.get? tag = r'.get? tag)
    (hshadowed : r.shadowed = r'.shadowed) : r = r' := by
  cases r
  cases r'
  congr 1
  exact SortedMap.ext_get? hitems

/-- The declared items alone are not touched by a placeholder. -/
@[simp]
theorem unresolved_ensure (r : Registry) (t : String) : (r.ensure t).unresolved = r.unresolved := by
  refine ext_get? ?_ (shadowed_ensure r t)
  intro tag
  rw [get?_unresolved, get?_unresolved, get?_ensure]
  by_cases h : tag = t
  · subst h
    cases hg : r.get? tag <;> simp [Item.placeholder, Item.isDeclared, Option.filter]
  · rw [if_neg h]

@[simp]
theorem unresolved_addRelative (r : Registry) (t name relative : String) :
    (r.addRelative t name relative).unresolved = r.unresolved := by
  refine ext_get? ?_ rfl
  intro tag
  rw [get?_unresolved, get?_unresolved, get?_addRelative]
  by_cases h : tag = t
  · subst h
    cases hg : r.get? tag with
    | none => simp
    | some item =>
      have hdeclared : (item.addRelative name relative).isDeclared = item.isDeclared := rfl
      simp [Option.filter, hdeclared]
  · rw [if_neg h]

@[simp]
theorem unresolved_unresolved (r : Registry) : r.unresolved.unresolved = r.unresolved := by
  refine ext_get? ?_ rfl
  intro tag
  rw [get?_unresolved, get?_unresolved]
  cases r.get? tag with
  | none => rfl
  | some item => cases h : item.isDeclared <;> simp [Option.filter, h]

theorem holder?_unresolved (r : Registry) (tag : String) :
    r.unresolved.holder? tag = r.holder? tag := by
  rw [holder?, get?_unresolved, holder?]
  cases r.get? tag with
  | none => rfl
  | some item =>
    cases h : item.isDeclared with
    | true => simp [Option.filter, h]
    | false =>
      have hnone : item.origin = none := by simpa [Item.isDeclared] using h
      simp [Option.filter, h, hnone]

theorem declares_eq (r : Registry) (tag : String) : r.declares tag = (r.holder? tag).isSome := by
  unfold declares holder?
  cases r.get? tag <;> rfl

theorem register_of_placeholder (r : Registry) (item : Item) (h : item.origin = none) :
    r.register item = (if r.contains item.tag then r else r.put item, none) := by
  simp [register, h]

theorem register_of_free (r : Registry) (item : Item) (origin : Origin)
    (h : item.origin = some origin) (hfree : r.holder? item.tag = none) :
    r.register item = (r.put item, none) := by
  simp [register, h, hfree]

theorem register_of_held (r : Registry) (item : Item) (origin first : Origin)
    (h : item.origin = some origin) (hheld : r.holder? item.tag = some first) :
    r.register item =
      ({ r with shadowed := r.shadowed ++ [item] }, some ⟨item.tag, first, origin⟩) := by
  simp [register, h, hheld]

theorem duplicate_register (r : Registry) (item : Item) (origin : Origin)
    (h : item.origin = some origin) (answer : DuplicateTag)
    (hanswer : (r.register item).2 = some answer) : answer.duplicate = origin := by
  cases hholder : r.holder? item.tag with
  | none =>
    rw [register_of_free r item origin h hholder] at hanswer
    contradiction
  | some first =>
    rw [register_of_held r item origin first h hholder] at hanswer
    exact (congrArg DuplicateTag.duplicate (Option.some.inj hanswer)).symm

private theorem filter_eraseP_self {α : Type} (p : α → Bool) (l : List α) :
    (l.eraseP p).filter p = (l.filter p).tail := by
  induction l with
  | nil => rfl
  | cons a l ih =>
    cases h : p a with
    | true => simp [h]
    | false => simp [h, ih]

private theorem filter_eraseP_of_disjoint {α : Type} {p q : α → Bool}
    (h : ∀ a, p a = true → q a = false) (l : List α) :
    (l.eraseP p).filter q = l.filter q := by
  induction l with
  | nil => rfl
  | cons a l ih =>
    cases hp : p a with
    | true => simp [hp, h a hp]
    | false => simp [hp, List.filter_cons, ih]

/-- A tag is handed to the declaration that has waited longest, which waits no more. -/
theorem promote_eq (r : Registry) (t : String) :
    r.promote t = match (r.waiting t).head? with
      | none => r
      | some item => ⟨r.items.insert t item.withoutRelatives,
          r.shadowed.eraseP fun item => item.tag == t⟩ := by
  rw [waiting, List.head?_filter]
  rfl

theorem waiting_promote (r : Registry) (t tag : String) :
    (r.promote t).waiting tag = if tag = t then (r.waiting t).tail else r.waiting tag := by
  rw [promote_eq]
  cases hw : (r.waiting t).head? with
  | none =>
    rw [List.head?_eq_none_iff] at hw
    by_cases h : tag = t
    · simp [h, hw]
    · simp [h]
  | some item =>
    by_cases h : tag = t
    · subst h
      rw [if_pos rfl]
      exact filter_eraseP_self _ r.shadowed
    · rw [if_neg h]
      refine filter_eraseP_of_disjoint ?_ r.shadowed
      intro i hi
      simp only [beq_iff_eq] at hi
      simp [hi, Ne.symm h]

theorem get?_promote (r : Registry) (t tag : String) :
    (r.promote t).get? tag =
      if tag = t then ((r.waiting t).head?.map Item.withoutRelatives).or (r.get? t)
      else r.get? tag := by
  rw [promote_eq]
  cases hw : (r.waiting t).head? with
  | none =>
    by_cases h : tag = t
    · simp [h]
    · simp [h]
  | some item => exact SortedMap.get?_insert r.items t tag item.withoutRelatives

/-- Several tags are handed over independently of each other. -/
theorem waiting_foldl_promote (tags : List String) (hnodup : tags.Nodup) (r : Registry)
    (tag : String) :
    (tags.foldl promote r).waiting tag =
      if tag ∈ tags then (r.waiting tag).tail else r.waiting tag := by
  induction tags generalizing r with
  | nil => simp
  | cons t tags ih =>
    rw [List.nodup_cons] at hnodup
    rw [List.foldl_cons, ih hnodup.2, waiting_promote]
    by_cases h : tag = t
    · subst h
      simp [hnodup.1]
    · simp [h]

theorem get?_foldl_promote (tags : List String) (hnodup : tags.Nodup) (r : Registry)
    (tag : String) :
    (tags.foldl promote r).get? tag =
      if tag ∈ tags then ((r.waiting tag).head?.map Item.withoutRelatives).or (r.get? tag)
      else r.get? tag := by
  induction tags generalizing r with
  | nil => simp
  | cons t tags ih =>
    rw [List.nodup_cons] at hnodup
    rw [List.foldl_cons, ih hnodup.2, waiting_promote, get?_promote]
    by_cases h : tag = t
    · subst h
      simp [hnodup.1]
    · simp [h]

theorem increasing_heldFrom (r : Registry) (document : String) :
    (r.heldFrom document).Pairwise fun s t => Rank.before s t = true :=
  SortedMap.increasing_keys _

theorem nodup_heldFrom (r : Registry) (document : String) : (r.heldFrom document).Nodup :=
  (increasing_heldFrom r document).imp fun h => Rank.ne_of_before h

theorem mem_heldFrom (r : Registry) (document tag : String) :
    tag ∈ r.heldFrom document ↔ ∃ o, r.holder? tag = some o ∧ o.document = document := by
  rw [heldFrom, SortedMap.mem_keys, SortedMap.get?_filter, holder?, get?]
  cases r.items.get? tag with
  | none => simp
  | some item =>
    simp only [Option.bind_some, ← item.isFrom_iff document]
    cases h : item.isFrom document <;> simp [Option.filter, h]

/-- The declarations of other documents that wait for a tag. -/
def waitingBeside (r : Registry) (document tag : String) : List Item :=
  (r.waiting tag).filter fun item => !item.isFrom document

private theorem waiting_withdrawn (r : Registry) (items : SortedMap String Item)
    (document tag : String) :
    (⟨items, r.shadowed.filter fun item => !item.isFrom document⟩ : Registry).waiting tag =
      r.waitingBeside document tag := by
  simp only [waiting, waitingBeside, List.filter_filter, Bool.and_comm]

theorem waiting_purge (r : Registry) (document tag : String) :
    (r.purge document).1.waiting tag =
      if tag ∈ r.heldFrom document then (r.waitingBeside document tag).tail
      else r.waitingBeside document tag := by
  simp only [purge]
  rw [waiting_foldl_promote _ (nodup_heldFrom r document), waiting_withdrawn]

theorem get?_purge (r : Registry) (document tag : String) :
    (r.purge document).1.get? tag =
      if tag ∈ r.heldFrom document then
        (r.waitingBeside document tag).head?.map Item.withoutRelatives
      else r.get? tag := by
  simp only [purge]
  rw [get?_foldl_promote _ (nodup_heldFrom r document), waiting_withdrawn]
  have hrest : (r.items.filter fun _ item => !item.isFrom document).get? tag =
      if tag ∈ r.heldFrom document then none else r.get? tag := by
    have hmem := mem_heldFrom r document tag
    rw [SortedMap.get?_filter]
    unfold holder? at hmem
    change (r.get? tag).filter _ = _
    cases hg : r.get? tag with
    | none => simp
    | some item =>
      rw [hg, Option.bind_some, ← item.isFrom_iff document] at hmem
      cases h : item.isFrom document <;> simp [Option.filter, hmem, h]
  change (if _ then Option.or _ (SortedMap.get? _ tag) else SortedMap.get? _ tag) = _
  rw [hrest]
  by_cases h : tag ∈ r.heldFrom document
  · simp [h]
  · simp [h]

end Registry

end Traceability
