import Mathlib.Data.List.Induction
import Mathlib.Data.List.Sort
import Traceability.Sorted.Set
import Traceability.Sorted.Map

/-!
A sorted map is determined by its look-ups and a sorted set by its elements. Every
operation on a map is described by the look-ups after it, and the keys of a map are
exactly those whose look-up succeeds.
-/

namespace Traceability

variable {κ : Type} [Rank κ]

/-- Strictly increasing lists with the same elements are equal. -/
theorem Rank.eq_of_mem_iff {l m : List κ} (hl : l.Pairwise fun a b => before a b = true)
    (hm : m.Pairwise fun a b => before a b = true) (h : ∀ a, a ∈ l ↔ a ∈ m) : l = m := by
  have nodup {l : List κ} (hl : l.Pairwise fun a b => before a b = true) : l.Nodup :=
    hl.imp fun hab => ne_of_before hab
  have hperm : l.Perm m := (List.perm_ext_iff_of_nodup (nodup hl) (nodup hm)).mpr h
  refine hperm.eq_of_pairwise ?_ hl hm
  intro a b _ _ hab hba
  rw [asymm hab] at hba
  contradiction

theorem Rank.not_before_trans {a b c : κ} (hba : before b a = false)
    (hcb : before c b = false) : before c a = false := by
  cases hca : before c a with
  | false => rfl
  | true =>
    cases hab : before a b with
    | true => rw [← hcb, trans hca hab]
    | false =>
      have heq : a = b := connected hab hba
      rw [heq, hcb] at hca
      contradiction

namespace SortedSet

theorem nodup (s : SortedSet κ) : s.toList.Nodup :=
  s.increasing.imp fun hab => Rank.ne_of_before hab

theorem mem_empty (a : κ) : a ∉ (∅ : SortedSet κ).toList := List.not_mem_nil

@[simp]
theorem mem_ofList {a : κ} {l : List κ} : a ∈ (ofList l).toList ↔ a ∈ l := by
  induction l using List.reverseRecOn with
  | nil => simp [ofList, empty]
  | append_singleton l b ih =>
    rw [ofList, List.foldl_append]
    change a ∈ ((ofList l).insert b).toList ↔ _
    rw [mem_insert, ih, List.mem_append, List.mem_singleton, or_comm]

theorem ext_mem {s t : SortedSet κ} (h : ∀ a, a ∈ s.toList ↔ a ∈ t.toList) : s = t := by
  have hlist := Rank.eq_of_mem_iff s.increasing t.increasing h
  cases s
  cases t
  congr

end SortedSet

namespace SortedMap

variable {α β : Type}

theorem nodup_entries (m : SortedMap κ α) : m.entries.Nodup :=
  m.increasing.imp fun hpq e => Rank.ne_of_before hpq (congrArg Prod.fst e)

theorem increasing_keys (m : SortedMap κ α) :
    m.keys.Pairwise fun a b => Rank.before a b = true := by
  rw [keys, List.pairwise_map]
  exact m.increasing

theorem nodup_keys (m : SortedMap κ α) : m.keys.Nodup :=
  m.increasing_keys.imp fun hab => Rank.ne_of_before hab

theorem size_eq_length_keys (m : SortedMap κ α) : m.size = m.keys.length :=
  (List.length_map ..).symm

variable [DecidableEq κ]

theorem find?_eq_none_of_before {k : κ} {l : List (κ × α)}
    (h : ∀ p ∈ l, Rank.before k p.1 = true) : find? k l = none := by
  induction l with
  | nil => rfl
  | cons p l ih =>
    obtain ⟨k', a⟩ := p
    have hk := Rank.ne_of_before (h _ List.mem_cons_self)
    rw [find?, if_neg (Ne.symm hk)]
    exact ih fun q hq => h q (List.mem_cons_of_mem _ hq)

theorem mem_iff_find? {k : κ} {a : α} {l : List (κ × α)}
    (h : l.Pairwise fun p q => Rank.before p.1 q.1 = true) :
    (k, a) ∈ l ↔ find? k l = some a := by
  induction l with
  | nil => simp [find?]
  | cons p l ih =>
    obtain ⟨k', a'⟩ := p
    rw [List.pairwise_cons] at h
    by_cases hk : k' = k
    · subst hk
      have hnone := find?_eq_none_of_before h.1
      have hmem : (k', a) ∉ l := by
        intro hmem
        rw [(ih h.2).mp hmem] at hnone
        contradiction
      simp [find?, hmem, eq_comm]
    · rw [find?, if_neg hk, ← ih h.2]
      simp [Ne.symm hk]

theorem mem_entries {m : SortedMap κ α} {k : κ} {a : α} :
    (k, a) ∈ m.entries ↔ m.get? k = some a :=
  mem_iff_find? m.increasing

theorem mem_keys {m : SortedMap κ α} {k : κ} : k ∈ m.keys ↔ (m.get? k).isSome := by
  rw [Option.isSome_iff_exists]
  constructor
  · intro h
    obtain ⟨⟨k', a⟩, hmem, rfl⟩ := List.mem_map.mp h
    exact ⟨a, mem_entries.mp hmem⟩
  · intro hparts
    obtain ⟨a, h⟩ := hparts
    exact List.mem_map.mpr ⟨(k, a), mem_entries.mpr h, rfl⟩

theorem mem_values {m : SortedMap κ α} {a : α} : a ∈ m.values ↔ ∃ k, m.get? k = some a := by
  constructor
  · intro h
    obtain ⟨⟨k, _⟩, hmem, rfl⟩ := List.mem_map.mp h
    exact ⟨k, mem_entries.mp hmem⟩
  · rintro ⟨k, h⟩
    exact mem_values_of_get? h

/-- Equal look-ups make equal maps. -/
theorem ext_get? {m n : SortedMap κ α} (h : ∀ k, m.get? k = n.get? k) : m = n := by
  have hperm : m.entries.Perm n.entries := by
    refine (List.perm_ext_iff_of_nodup m.nodup_entries n.nodup_entries).mpr ?_
    intro hparts
    obtain ⟨k, a⟩ := hparts
    rw [mem_entries, mem_entries, h]
  have hentries : m.entries = n.entries := by
    refine hperm.eq_of_pairwise ?_ m.increasing n.increasing
    intro p q _ _ hpq hqp
    rw [Rank.asymm hpq] at hqp
    contradiction
  cases m
  cases n
  congr

theorem filter_values_eq_find? (f : α → κ) (k : κ) {l : List (κ × α)}
    (h : l.Pairwise fun p q => Rank.before p.1 q.1 = true) (hf : ∀ p ∈ l, f p.2 = p.1) :
    (l.map Prod.snd).filter (fun a => decide (f a = k)) = (find? k l).toList := by
  induction l with
  | nil => rfl
  | cons p l ih =>
    obtain ⟨k', a⟩ := p
    rw [List.pairwise_cons] at h
    rw [List.forall_mem_cons] at hf
    by_cases hk : k' = k
    · subst hk
      have hnone : find? k' l = none := find?_eq_none_of_before h.1
      simp [find?, hf.1, ih h.2 hf.2, hnone]
    · simp [find?, hf.1, ih h.2 hf.2, hk]

/-- Where values are kept under keys of their own, a key picks out the value that is kept there. -/
theorem filter_values {m : SortedMap κ α} {f : α → κ}
    (hf : ∀ k a, m.get? k = some a → f a = k) (k : κ) :
    m.values.filter (fun a => decide (f a = k)) = (m.get? k).toList :=
  filter_values_eq_find? f k m.increasing fun p hp => hf p.1 p.2 (mem_entries.mp hp)

theorem keys_congr {m : SortedMap κ α} {n : SortedMap κ β}
    (h : ∀ k, (m.get? k).isSome = (n.get? k).isSome) : m.keys = n.keys := by
  refine Rank.eq_of_mem_iff m.increasing_keys n.increasing_keys ?_
  intro k
  rw [mem_keys, mem_keys, h]

theorem find?_filter (p : κ → α → Bool) (k : κ) {l : List (κ × α)}
    (h : l.Pairwise fun p q => Rank.before p.1 q.1 = true) :
    find? k (l.filter fun (k, a) => p k a) = (find? k l).filter (p k) := by
  induction l with
  | nil => rfl
  | cons q l ih =>
    obtain ⟨k', a⟩ := q
    rw [List.pairwise_cons] at h
    by_cases hk : k' = k
    · subst hk
      have hnone : find? k' l = none := find?_eq_none_of_before h.1
      cases hp : p k' a <;> simp [find?, hp, ih h.2, hnone, Option.filter]
    · cases hp : p k' a <;> simp [find?, hp, hk, ih h.2]

@[simp]
theorem get?_filter (m : SortedMap κ α) (p : κ → α → Bool) (k : κ) :
    (m.filter p).get? k = (m.get? k).filter (p k) :=
  find?_filter p k m.increasing

omit [Rank κ] in
theorem find?_map (f : α → β) (k : κ) (l : List (κ × α)) :
    find? k (l.map fun (k, a) => (k, f a)) = (find? k l).map f := by
  induction l with
  | nil => rfl
  | cons p l ih =>
    obtain ⟨k', a⟩ := p
    by_cases hk : k' = k <;> simp [find?, hk, ih]

@[simp]
theorem get?_map (m : SortedMap κ α) (f : α → β) (k : κ) :
    (m.map f).get? k = (m.get? k).map f :=
  find?_map f k m.entries

theorem get?_erase (m : SortedMap κ α) (k x : κ) :
    (m.erase k).get? x = if x = k then none else m.get? x := by
  rw [erase, get?_filter]
  by_cases h : x = k <;> cases m.get? x <;> simp [h, Option.filter]

theorem get?_alter (m : SortedMap κ α) (k x : κ) (f : Option α → α) :
    (m.alter k f).get? x = if x = k then some (f (m.get? k)) else m.get? x :=
  get?_insert m k x _

theorem get?_modify (m : SortedMap κ α) (k x : κ) (f : α → α) :
    (m.modify k f).get? x = if x = k then (m.get? k).map f else m.get? x := by
  unfold modify
  cases hk : m.get? k with
  | none =>
    by_cases h : x = k
    · simp [h, hk]
    · simp [h]
  | some a => simp [get?_insert]

@[simp]
theorem get?_emptyCollection (k : κ) : (∅ : SortedMap κ α).get? k = none := rfl

theorem get?_ofList_append (l : List (κ × α)) (k x : κ) (a : α) :
    (ofList (l ++ [(k, a)])).get? x = if x = k then some a else (ofList l).get? x := by
  rw [ofList, List.foldl_append]
  exact get?_insert _ k x a

/-- A list without repeated keys and the map made from it have the same entries. -/
theorem get?_ofList_of_nodup {l : List (κ × α)} (h : (l.map Prod.fst).Nodup) (k : κ) (a : α) :
    (ofList l).get? k = some a ↔ (k, a) ∈ l := by
  induction l using List.reverseRecOn with
  | nil => simp [ofList, get?_empty]
  | append_singleton l p ih =>
    obtain ⟨k', a'⟩ := p
    rw [List.map_append, List.nodup_append] at h
    rw [get?_ofList_append, List.mem_append, List.mem_singleton]
    by_cases hk : k = k'
    · subst hk
      have hmem : (k, a) ∉ l := by
        intro hmem
        exact h.2.2 k (List.mem_map_of_mem hmem) k (by simp) rfl
      simp [hmem, eq_comm]
    · simp [hk, ih h.1]

theorem ofList_entries (m : SortedMap κ α) : ofList m.entries = m := by
  apply ext_get?
  intro k
  apply Option.ext
  intro a
  rw [get?_ofList_of_nodup m.nodup_keys, mem_entries]

theorem get?_foldl_insert (m : SortedMap κ α) (l : List (κ × α)) (k : κ) :
    (l.foldl (fun m (k, a) => m.insert k a) m).get? k = ((ofList l).get? k).or (m.get? k) := by
  induction l using List.reverseRecOn with
  | nil => rfl
  | append_singleton l p ih =>
    obtain ⟨k', a⟩ := p
    rw [List.foldl_append, get?_ofList_append]
    change (SortedMap.insert _ k' a).get? k = _
    rw [get?_insert, ih]
    split <;> rfl

theorem get?_merge (m n : SortedMap κ α) (k : κ) :
    (m.merge n).get? k = (n.get? k).or (m.get? k) := by
  rw [merge, get?_foldl_insert, ofList_entries]

end SortedMap

end Traceability
