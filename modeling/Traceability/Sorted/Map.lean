import Traceability.Sorted.Rank

/-!
Finite maps kept as lists of entries with strictly increasing keys, so that equal
maps are equal values. A look-up after an insertion sees the inserted value under
its key and the earlier map under every other key.
-/

namespace Traceability

structure SortedMap (κ : Type) [Rank κ] (α : Type) where
  entries : List (κ × α)
  increasing : entries.Pairwise fun p q => Rank.before p.1 q.1 = true

namespace SortedMap

variable {κ : Type} [Rank κ] {α β : Type}

def place (k : κ) (a : α) : List (κ × α) → List (κ × α)
  | [] => [(k, a)]
  | (k', a') :: rest =>
      if Rank.before k k' then (k, a) :: (k', a') :: rest
      else if Rank.before k' k then (k', a') :: place k a rest
      else (k, a) :: rest

theorem key_mem_place {k x : κ} {a : α} {l : List (κ × α)} :
    x ∈ (place k a l).map Prod.fst ↔ x = k ∨ x ∈ l.map Prod.fst := by
  induction l with
  | nil => simp [place]
  | cons p l ih =>
    obtain ⟨k', a'⟩ := p
    simp only [place]
    split
    · simp
    · split
      · simp only [List.map_cons, List.mem_cons, ih]
        constructor <;> (rintro (h | h | h) <;> simp [h])
      · rename_i hab hba
        rw [Rank.connected (Bool.eq_false_iff.mpr hab) (Bool.eq_false_iff.mpr hba)]
        simp

theorem increasing_place {k : κ} {a : α} {l : List (κ × α)}
    (h : l.Pairwise fun p q => Rank.before p.1 q.1 = true) :
    (place k a l).Pairwise fun p q => Rank.before p.1 q.1 = true := by
  induction l with
  | nil => simp [place]
  | cons p l ih =>
    obtain ⟨k', a'⟩ := p
    rw [List.pairwise_cons] at h
    simp only [place]
    split
    · rename_i hk
      refine List.pairwise_cons.mpr ⟨fun q hq => ?_, List.pairwise_cons.mpr h⟩
      rcases List.mem_cons.mp hq with rfl | hq
      · exact hk
      · exact Rank.trans hk (h.1 q hq)
    · split
      · rename_i hk
        refine List.pairwise_cons.mpr ⟨fun q hq => ?_, ih h.2⟩
        rcases key_mem_place.mp (List.mem_map_of_mem hq) with e | hmem
        · rw [e]; exact hk
        · obtain ⟨r, hr, e⟩ := List.mem_map.mp hmem
          rw [← e]
          exact h.1 r hr
      · rename_i hab hba
        have e := Rank.connected (Bool.eq_false_iff.mpr hab) (Bool.eq_false_iff.mpr hba)
        subst e
        exact List.pairwise_cons.mpr h

def empty : SortedMap κ α := ⟨[], List.Pairwise.nil⟩

instance : EmptyCollection (SortedMap κ α) := ⟨empty⟩

instance : Inhabited (SortedMap κ α) := ⟨empty⟩

def insert (m : SortedMap κ α) (k : κ) (a : α) : SortedMap κ α :=
  ⟨place k a m.entries, increasing_place m.increasing⟩

/-- Of several values for one key, the last counts. -/
def ofList (l : List (κ × α)) : SortedMap κ α := l.foldl (fun m (k, a) => m.insert k a) empty

def filter (p : κ → α → Bool) (m : SortedMap κ α) : SortedMap κ α :=
  ⟨m.entries.filter fun (k, a) => p k a, m.increasing.filter _⟩

def map (f : α → β) (m : SortedMap κ α) : SortedMap κ β :=
  ⟨m.entries.map fun (k, a) => (k, f a), by
    rw [List.pairwise_map]
    exact m.increasing⟩

def keys (m : SortedMap κ α) : List κ := m.entries.map Prod.fst

def values (m : SortedMap κ α) : List α := m.entries.map Prod.snd

def size (m : SortedMap κ α) : Nat := m.entries.length

def isEmpty (m : SortedMap κ α) : Bool := m.entries.isEmpty

section Lookup

variable [DecidableEq κ]

def find? (k : κ) : List (κ × α) → Option α
  | [] => none
  | (k', a) :: rest => if k' = k then some a else find? k rest

def get? (m : SortedMap κ α) (k : κ) : Option α := find? k m.entries

def contains (m : SortedMap κ α) (k : κ) : Bool := (m.get? k).isSome

def erase (m : SortedMap κ α) (k : κ) : SortedMap κ α := m.filter fun k' _ => decide (k' ≠ k)

/-- Replaces the value under a key, or adds one where there is none. -/
def alter (m : SortedMap κ α) (k : κ) (f : Option α → α) : SortedMap κ α :=
  m.insert k (f (m.get? k))

/-- Changes the value under a key and leaves a map without that key alone. -/
def modify (m : SortedMap κ α) (k : κ) (f : α → α) : SortedMap κ α :=
  match m.get? k with
  | some a => m.insert k (f a)
  | none => m

/-- The second map's entries count where both have a key. -/
def merge (m n : SortedMap κ α) : SortedMap κ α := n.entries.foldl (fun m (k, a) => m.insert k a) m

theorem find?_place_self (k : κ) (a : α) (l : List (κ × α)) : find? k (place k a l) = some a := by
  induction l with
  | nil => simp [place, find?]
  | cons p l ih =>
    obtain ⟨k', a'⟩ := p
    simp only [place]
    split
    · simp [find?]
    · split
      · rename_i hk
        rw [find?, if_neg (Rank.ne_of_before hk), ih]
      · simp [find?]

theorem find?_place_of_ne {k x : κ} (h : x ≠ k) (a : α) (l : List (κ × α)) :
    find? x (place k a l) = find? x l := by
  induction l with
  | nil => simp [place, find?, h.symm]
  | cons p l ih =>
    obtain ⟨k', a'⟩ := p
    simp only [place]
    split
    · rw [find?, if_neg h.symm]
    · split
      · rw [find?, find?, ih]
      · rename_i hab hba
        have e := Rank.connected (Bool.eq_false_iff.mpr hab) (Bool.eq_false_iff.mpr hba)
        subst e
        rw [find?, find?, if_neg h.symm, if_neg h.symm]

omit [Rank κ] in
theorem mem_of_find? {k : κ} {a : α} {l : List (κ × α)} (h : find? k l = some a) : (k, a) ∈ l := by
  induction l with
  | nil => contradiction
  | cons p l ih =>
    obtain ⟨k', a'⟩ := p
    rw [find?] at h
    split at h
    · rename_i hk
      cases h
      rw [hk]
      exact List.mem_cons_self
    · exact List.mem_cons_of_mem _ (ih h)

theorem mem_values_of_get? {m : SortedMap κ α} {k : κ} {a : α} (h : m.get? k = some a) :
    a ∈ m.values := List.mem_map_of_mem (mem_of_find? h)

theorem get?_insert (m : SortedMap κ α) (k x : κ) (a : α) :
    (m.insert k a).get? x = if x = k then some a else m.get? x := by
  by_cases h : x = k
  · subst h
    rw [if_pos rfl]
    exact find?_place_self x a m.entries
  · rw [if_neg h]
    exact find?_place_of_ne h a m.entries

theorem contains_insert (m : SortedMap κ α) (k x : κ) (a : α) :
    (m.insert k a).contains x = (decide (x = k) || m.contains x) := by
  rw [contains, get?_insert]
  by_cases h : x = k
  · simp [h]
  · simp [h, contains]

theorem get?_empty (x : κ) : (empty : SortedMap κ α).get? x = none := rfl

end Lookup

instance [DecidableEq κ] [DecidableEq α] : DecidableEq (SortedMap κ α) := fun m n =>
  if h : m.entries = n.entries then
    isTrue (by cases m; cases n; cases h; rfl)
  else isFalse fun e => h (congrArg entries e)

end SortedMap

end Traceability
