import Traceability.Proofs.Resolution.Outcome

/-!
A register keeps a log: the declared items in the order of their registration,
without those of withdrawn documents. The first claim of the log to a tag holds the
tag and the later ones wait for it, whatever placeholders and links came and went.
-/

namespace Traceability.Registry

/-- Declared items, the earliest first. -/
abbrev Log := List Item

namespace Log

/-- Everything that was declared under a tag. -/
def claims (log : Log) (tag : String) : Log := log.filter fun item => item.tag == tag

def first? (log : Log) (tag : String) : Option Item := log.find? fun item => item.tag == tag

/-- Placeholders are not written down. -/
def add (log : Log) (item : Item) : Log := if item.isDeclared then log ++ [item] else log

def withdraw (log : Log) (document : String) : Log := log.filter fun item => !item.isFrom document

theorem head?_claims (log : Log) (tag : String) : (log.claims tag).head? = log.first? tag :=
  List.head?_filter

theorem mem_claims (log : Log) (tag : String) (item : Item) :
    item ∈ log.claims tag ↔ item ∈ log ∧ item.tag = tag := by
  simp [claims]

theorem first?_eq_none_iff (log : Log) (tag : String) :
    log.first? tag = none ↔ ∀ item ∈ log, item.tag ≠ tag := by
  simp [first?]

theorem tag_of_first? {log : Log} {tag : String} {item : Item} (h : log.first? tag = some item) :
    item.tag = tag := by
  rw [← head?_claims] at h
  exact ((mem_claims ..).mp (List.mem_of_mem_head? h)).2

theorem claims_append (log : Log) (item : Item) (tag : String) :
    claims (log ++ [item]) tag =
      if item.tag = tag then log.claims tag ++ [item] else log.claims tag := by
  unfold claims
  rw [List.filter_append]
  by_cases h : item.tag = tag <;> simp [h]

theorem claims_withdraw (log : Log) (document tag : String) :
    (log.withdraw document).claims tag =
      (log.claims tag).filter fun item => !item.isFrom document := by
  simp only [claims, withdraw, List.filter_filter, Bool.and_comm]

/-- Without repeated tags there is at most one claim to each tag. -/
theorem tail_claims_of_nodup {log : Log} (h : (log.map Item.tag).Nodup) (tag : String) :
    (log.claims tag).tail = [] := by
  have hnodup : ((log.claims tag).map Item.tag).Nodup :=
    (List.filter_sublist.map Item.tag).nodup h
  have htag : ∀ item ∈ log.claims tag, item.tag = tag :=
    fun item hitem => ((mem_claims ..).mp hitem).2
  generalize log.claims tag = found at hnodup htag ⊢
  rcases found with _ | ⟨first, _ | ⟨second, rest⟩⟩
  · rfl
  · rfl
  · have hfirst := htag first (by simp)
    have hsecond := htag second (by simp)
    simp [hfirst, hsecond] at hnodup

theorem claims_congr {log log' : Log} (h : log.Perm log') (hnodup : (log.map Item.tag).Nodup)
    (tag : String) : log.claims tag = log'.claims tag := by
  have hperm : (log.claims tag).Perm (log'.claims tag) := h.filter _
  have htail := tail_claims_of_nodup hnodup tag
  cases hc : log.claims tag with
  | nil =>
    rw [hc] at hperm
    exact hperm.nil_eq
  | cons first rest =>
    rw [hc, List.tail_cons] at htail
    rw [hc, htail] at hperm
    rw [htail]
    exact hperm.singleton_eq

end Log

/-- The register agrees with the log. -/
structure Keeps (r : Registry) (log : Log) : Prop where
  keyed : r.Keyed
  declared : ∀ item ∈ log, item.isDeclared = true
  holds_first : ∀ tag, r.unresolved.get? tag = (log.claims tag).head?.map Item.withoutRelatives
  waiting_eq : ∀ tag, r.waiting tag = (log.claims tag).tail

theorem keeps_empty : empty.Keeps [] where
  keyed := fun _ _ h => by cases h
  declared := fun _ h => by cases h
  holds_first := fun _ => rfl
  waiting_eq := fun _ => rfl

variable {r : Registry} {log : Log}

namespace Keeps

theorem holder?_eq (h : r.Keeps log) (tag : String) :
    r.holder? tag = (log.first? tag).bind Item.origin := by
  rw [← holder?_unresolved, holder?, h.holds_first, Log.head?_claims]
  cases log.first? tag <;> rfl

theorem holder?_eq_none_iff (h : r.Keeps log) (tag : String) :
    r.holder? tag = none ↔ log.claims tag = [] := by
  rw [h.holder?_eq, ← Log.head?_claims]
  cases hc : log.claims tag with
  | nil => simp
  | cons item rest =>
    have hmem : item ∈ log.claims tag := hc ▸ List.mem_cons_self
    obtain ⟨o, ho⟩ :=
      (Item.isDeclared_iff item).mp (h.declared item ((Log.mem_claims ..).mp hmem).1)
    simp [ho]

theorem mem_of_mem_shadowed (h : r.Keeps log) {item : Item} (hitem : item ∈ r.shadowed) :
    item ∈ log := by
  have hwaiting : item ∈ r.waiting item.tag :=
    List.mem_filter.mpr ⟨hitem, beq_self_eq_true item.tag⟩
  rw [h.waiting_eq] at hwaiting
  exact ((Log.mem_claims ..).mp (List.mem_of_mem_tail hwaiting)).1

/-- Two registers that keep the same log differ in placeholders and links only. -/
theorem unresolved_congr {r' : Registry} {log' : Log} (h : r.Keeps log) (h' : r'.Keeps log')
    (hclaims : ∀ tag, log.claims tag = log'.claims tag) (hshadowed : r.shadowed = r'.shadowed) :
    r.unresolved = r'.unresolved := by
  refine ext_get? ?_ hshadowed
  intro tag
  rw [h.holds_first, h'.holds_first, hclaims]

theorem of_unresolved_eq {r' : Registry} (h : r.Keeps log) (hkeyed : r'.Keyed)
    (heq : r'.unresolved = r.unresolved) : r'.Keeps log where
  keyed := hkeyed
  declared := h.declared
  holds_first := fun tag => by rw [heq, h.holds_first]
  waiting_eq := fun tag => by
    have hshadowed : r'.shadowed = r.shadowed := by
      rw [← shadowed_unresolved, heq, shadowed_unresolved]
    rw [waiting, hshadowed]
    exact h.waiting_eq tag

theorem ensure (h : r.Keeps log) (tag : String) : (r.ensure tag).Keeps log :=
  h.of_unresolved_eq (keyed_ensure r tag h.keyed) (unresolved_ensure r tag)

theorem resolve (h : r.Keeps log) (index : Relationship.Index) :
    (Resolution.ofRegistry index r).registry.Keeps log :=
  h.of_unresolved_eq (Resolution.keyed_ofRegistry index r h.keyed)
    (Resolution.unresolved_ofRegistry index r)

theorem register_placeholder (h : r.Keeps log) (item : Item) (hitem : item.origin = none) :
    (r.register item).1.Keeps log := by
  rw [register_of_placeholder r item hitem]
  cases hcontains : r.contains item.tag with
  | true => exact h
  | false =>
    refine h.of_unresolved_eq (keyed_put r item h.keyed) (ext_get? ?_ rfl)
    intro tag
    have hnone : r.get? item.tag = none := by
      simpa [contains, SortedMap.contains, get?] using hcontains
    rw [get?_unresolved, get?_unresolved]
    simp only [Bool.false_eq_true, if_false, get?_put]
    by_cases ht : tag = item.tag
    · simp [ht, hnone, Item.isDeclared, hitem, Option.filter]
    · simp [ht]

theorem declared_append (h : r.Keeps log) {item : Item} (hitem : item.isDeclared = true) :
    ∀ i ∈ log ++ [item], i.isDeclared = true := by
  intro i hi
  rcases List.mem_append.mp hi with hi | hi
  · exact h.declared i hi
  · exact List.mem_singleton.mp hi ▸ hitem

theorem register_free (h : r.Keeps log) (item : Item) (origin : Origin)
    (hitem : item.origin = some origin) (hfree : r.holder? item.tag = none) :
    (r.register item).1.Keeps (log ++ [item]) := by
  have hdeclared : item.isDeclared = true := (Item.isDeclared_iff item).mpr ⟨origin, hitem⟩
  have hnone := (h.holder?_eq_none_iff item.tag).mp hfree
  rw [register_of_free r item origin hitem hfree]
  refine ⟨keyed_put r item h.keyed, h.declared_append hdeclared, ?_, ?_⟩
  · intro tag
    rw [get?_unresolved, get?_put, Log.claims_append]
    by_cases ht : tag = item.tag
    · simp [ht, hnone, hdeclared]
    · rw [if_neg ht, if_neg (Ne.symm ht), ← get?_unresolved, h.holds_first]
  · intro tag
    have hwaiting : (r.put item).waiting tag = r.waiting tag := rfl
    rw [hwaiting, h.waiting_eq, Log.claims_append]
    by_cases ht : item.tag = tag
    · rw [← ht, hnone]
      simp
    · rw [if_neg ht]

theorem register_held (h : r.Keeps log) (item : Item) (origin first : Origin)
    (hitem : item.origin = some origin) (hheld : r.holder? item.tag = some first) :
    (r.register item).1.Keeps (log ++ [item]) := by
  have hdeclared : item.isDeclared = true := (Item.isDeclared_iff item).mpr ⟨origin, hitem⟩
  have hsome : log.claims item.tag ≠ [] := by
    intro hnone
    rw [(h.holder?_eq_none_iff item.tag).mpr hnone] at hheld
    contradiction
  rw [register_of_held r item origin first hitem hheld]
  refine ⟨h.keyed, h.declared_append hdeclared, ?_, ?_⟩
  · intro tag
    have hitems : ({ r with shadowed := r.shadowed ++ [item] } : Registry).unresolved.get? tag =
        r.unresolved.get? tag := rfl
    rw [hitems, h.holds_first, Log.claims_append]
    by_cases ht : item.tag = tag
    · subst ht
      rw [if_pos rfl, List.head?_append_of_ne_nil _ hsome]
    · rw [if_neg ht]
  · intro tag
    have hwaiting : ({ r with shadowed := r.shadowed ++ [item] } : Registry).waiting tag =
        if item.tag = tag then r.waiting tag ++ [item] else r.waiting tag :=
      Log.claims_append r.shadowed item tag
    rw [hwaiting, h.waiting_eq, Log.claims_append]
    by_cases ht : item.tag = tag
    · subst ht
      rw [if_pos rfl, if_pos rfl, List.tail_append_of_ne_nil hsome]
    · rw [if_neg ht, if_neg ht]

/-- A placeholder is not written down, and a declaration is whether or not it is
rejected. -/
theorem register (h : r.Keeps log) (item : Item) : (r.register item).1.Keeps (log.add item) := by
  unfold Log.add
  cases hitem : item.origin with
  | none =>
    have hdeclared : item.isDeclared = false := by simp [Item.isDeclared, hitem]
    rw [if_neg (by simp [hdeclared])]
    exact h.register_placeholder item hitem
  | some origin =>
    rw [if_pos ((Item.isDeclared_iff item).mpr ⟨origin, hitem⟩)]
    cases hholder : r.holder? item.tag with
    | none => exact h.register_free item origin hitem hholder
    | some first => exact h.register_held item origin first hitem hholder

theorem mem_heldFrom_iff (h : r.Keeps log) (document tag : String) :
    tag ∈ r.heldFrom document ↔
      ∃ first, log.first? tag = some first ∧ first.isFrom document = true := by
  rw [mem_heldFrom, h.holder?_eq]
  simp only [Item.isFrom_iff, Option.bind_eq_some_iff]
  constructor
  · intro hparts
    obtain ⟨o, ⟨first, hfirst, ho⟩, hdocument⟩ := hparts
    exact ⟨first, hfirst, o, ho, hdocument⟩
  · intro hparts
    obtain ⟨first, hfirst, o, ho, hdocument⟩ := hparts
    exact ⟨o, ⟨first, hfirst, ho⟩, hdocument⟩

theorem keyed_purge (h : r.Keeps log) (document : String) : (r.purge document).1.Keyed := by
  intro tag item hget
  rw [get?_purge] at hget
  split at hget
  · obtain ⟨i, hi, rfl⟩ := Option.map_eq_some_iff.mp hget
    have hmem := (List.mem_filter.mp (List.mem_of_mem_head? hi)).1
    exact beq_iff_eq.mp (List.mem_filter.mp hmem).2
  · exact h.keyed tag item hget

/-- A freed tag is one whose first claim comes from the document. -/
theorem mem_heldFrom_of_cons (h : r.Keeps log) (document : String) {tag : String} {first : Item}
    {rest : Log} (hclaims : log.claims tag = first :: rest) :
    tag ∈ r.heldFrom document ↔ first.isFrom document = true := by
  rw [h.mem_heldFrom_iff, ← Log.head?_claims, hclaims]
  simp

theorem not_mem_heldFrom_of_nil (h : r.Keeps log) (document : String) {tag : String}
    (hclaims : log.claims tag = []) : tag ∉ r.heldFrom document := by
  rw [h.mem_heldFrom_iff, ← Log.head?_claims, hclaims]
  simp

theorem waitingBeside_eq (h : r.Keeps log) (document tag : String) :
    r.waitingBeside document tag =
      (log.claims tag).tail.filter fun item => !item.isFrom document := by
  rw [waitingBeside, h.waiting_eq]

/-- A tag that its first claim leaves goes to the next one that stays. -/
theorem holds_first_purge (h : r.Keeps log) (document tag : String) :
    (r.purge document).1.unresolved.get? tag =
      ((log.withdraw document).claims tag).head?.map Item.withoutRelatives := by
  have hkept := h.holds_first tag
  rw [get?_unresolved, get?_purge, Log.claims_withdraw, h.waitingBeside_eq]
  cases hclaims : log.claims tag with
  | nil =>
    rw [hclaims] at hkept
    rw [if_neg (h.not_mem_heldFrom_of_nil document hclaims), ← get?_unresolved, hkept]
    rfl
  | cons first rest =>
    have hheld := h.mem_heldFrom_of_cons document hclaims
    rw [hclaims] at hkept
    cases hfirst : first.isFrom document with
    | true =>
      have hstays : ((first :: rest).filter fun item => !item.isFrom document) =
          rest.filter fun item => !item.isFrom document := by
        simp [hfirst]
      rw [if_pos (hheld.mpr hfirst), List.tail_cons, hstays]
      cases hhead : (rest.filter fun item => !item.isFrom document).head? with
      | none => rfl
      | some item =>
        have hrest : item ∈ rest := (List.mem_filter.mp (List.mem_of_mem_head? hhead)).1
        have hclaim : item ∈ log.claims tag := hclaims ▸ List.mem_cons_of_mem first hrest
        have hdeclared := h.declared item ((Log.mem_claims ..).mp hclaim).1
        simp [Option.filter, hdeclared]
    | false =>
      rw [if_neg (by simp [hheld, hfirst]), ← get?_unresolved, hkept]
      simp [hfirst]

theorem waiting_eq_purge (h : r.Keeps log) (document tag : String) :
    (r.purge document).1.waiting tag = ((log.withdraw document).claims tag).tail := by
  rw [waiting_purge, Log.claims_withdraw, h.waitingBeside_eq]
  cases hclaims : log.claims tag with
  | nil => simp
  | cons first rest =>
    have hheld := h.mem_heldFrom_of_cons document hclaims
    cases hfirst : first.isFrom document with
    | true =>
      rw [if_pos (hheld.mpr hfirst)]
      simp [hfirst]
    | false =>
      rw [if_neg (by simp [hheld, hfirst])]
      simp [hfirst]

/-- A withdrawal strikes the document's claims from the log. -/
theorem purge (h : r.Keeps log) (document : String) :
    (r.purge document).1.Keeps (log.withdraw document) where
  keyed := h.keyed_purge document
  declared := fun item hitem => h.declared item (List.mem_filter.mp hitem).1
  holds_first := h.holds_first_purge document
  waiting_eq := h.waiting_eq_purge document

end Keeps

end Traceability.Registry
