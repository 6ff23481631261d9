import Mathlib.Data.List.Induction
import Traceability.Proofs.Matrix.Transpose
import Traceability.Proofs.Sorted.Search

/-!
A matrix that is filled with one pair after the other. A row and a column are inserted where a
search by halves finds their place, so that they stay in order and none is there twice, and the
columns of a row are kept under its tag. What the matrix is in the end depends on which pairs
were added, not on their order and repetition.
-/

namespace Traceability

namespace Rank

variable {α : Type} [Rank α]

def insertSorted [DecidableEq α] (l : List α) (a : α) : List α :=
  match search l a with
  | .ok _ => l
  | .error i => l.insertIdx i a

section Search

variable {l : List α} {a : α} [DecidableEq α]

/-- At the bound a value is put where walking along the list would put it. -/
theorem Bounds.insertIdx_eq_place {i : Nat} (h : Bounds l a i i) :
    (if l[i]? = some a then l else l.insertIdx i a) = SortedSet.place a l := by
  induction l generalizing i with
  | nil =>
    obtain rfl : i = 0 := Nat.le_zero.mp h.high_le
    rfl
  | cons b l ih =>
    cases i with
    | zero =>
      have hba : before b a = false := h.not_before_high 0 b rfl (Nat.le_refl 0)
      rw [SortedSet.place, List.getElem?_cons_zero, List.insertIdx_zero, hba]
      cases hab : before a b with
      | true =>
        have hne : ¬ some b = some a := fun heq => ne_of_before hab (Option.some.inj heq).symm
        rw [if_neg hne, if_pos rfl]
      | false =>
        rw [connected hab hba]
        simp
    | succ i =>
      have hba : before b a = true := h.before_low 0 b rfl (Nat.succ_pos i)
      have hrest : Bounds l a i i :=
        ⟨Nat.le_refl i, Nat.le_of_succ_le_succ h.high_le,
          fun j c hc hj => h.before_low (j + 1) c hc (Nat.succ_lt_succ hj),
          fun j c hc hj => h.not_before_high (j + 1) c hc (Nat.succ_le_succ hj)⟩
      rw [SortedSet.place, asymm hba, hba, ← ih hrest, List.getElem?_cons_succ,
        List.insertIdx_succ_cons]
      split <;> rfl

theorem insertSorted_eq_place (hl : l.Pairwise fun a b => before a b = true) (a : α) :
    insertSorted l a = SortedSet.place a l := by
  rw [← (bounds_lowerBound hl (bounds_all l a)).insertIdx_eq_place, insertSorted, search]
  split <;> rename_i hsearch
  · split at hsearch
    · rename_i hfound
      rw [if_pos hfound]
    · contradiction
  · split at hsearch
    · contradiction
    · rename_i hmissing
      cases hsearch
      rw [if_neg hmissing]

end Search

end Rank

namespace SortedSet

variable {α : Type} [Rank α]

theorem ofList_append_singleton (l : List α) (a : α) : ofList (l ++ [a]) = (ofList l).insert a := by
  rw [ofList, List.foldl_append]
  rfl

theorem insertSorted_ofList [DecidableEq α] (l : List α) (a : α) :
    Rank.insertSorted (ofList l).toList a = (ofList (l ++ [a])).toList := by
  rw [ofList_append_singleton, toList_insert, Rank.insertSorted_eq_place (ofList l).increasing]

end SortedSet

namespace Matrix

/-- Pairs are in the order of their rows, and those of one row in the order of their columns. -/
theorem before_pair_iff (p q : Pair) :
    Rank.before p q = true ↔ Rank.before p.primary q.primary = true ∨
      p.primary = q.primary ∧ Rank.before p.secondary q.secondary = true := by
  have hkey : Rank.before p q =
      Rank.listBefore [p.primary, p.secondary] [q.primary, q.secondary] := rfl
  rw [hkey]
  simp only [Rank.listBefore, Bool.and_false, Bool.or_false, Bool.or_eq_true,
    Bool.and_eq_true, Bool.not_eq_true']
  constructor
  · rintro (hprimary | ⟨hback, hsecondary⟩)
    · exact Or.inl hprimary
    · cases hprimary : Rank.before p.primary q.primary with
      | true => exact Or.inl rfl
      | false => exact Or.inr ⟨Rank.connected hprimary hback, hsecondary⟩
  · rintro (hprimary | ⟨heq, hsecondary⟩)
    · exact Or.inl hprimary
    · rw [heq]
      exact Or.inr ⟨Rank.irrefl _, hsecondary⟩

/-- A matrix while pairs are added to it. The columns of each row are kept under its tag. -/
@[ext]
structure Filling where
  relationship : String
  opposite : String
  primaries : List String
  secondaries : List String
  columns : SortedMap String (SortedSet String)
deriving DecidableEq

namespace Filling

def new (relationship opposite : String) : Filling := ⟨relationship, opposite, [], [], ∅⟩

/-- Relates a row and a column, which are inserted where they are missing. -/
def add (m : Filling) (p : Pair) : Filling :=
  { m with
    primaries := Rank.insertSorted m.primaries p.primary
    secondaries := Rank.insertSorted m.secondaries p.secondary
    columns := m.columns.alter p.primary fun tags => (tags.getD ∅).insert p.secondary }

def addAll (m : Filling) (pairs : List Pair) : Filling := pairs.foldl add m

def isRelated (m : Filling) (primary secondary : String) : Bool :=
  (m.columns.get? primary).any fun tags => tags.contains secondary

def relatives (m : Filling) (primary : String) : List String :=
  match m.columns.get? primary with
  | some tags => tags.toList
  | none => []

/-- One flag for each column. -/
def row (m : Filling) (primary : String) : List Bool := m.secondaries.map (m.isRelated primary)

/-- The pairs, row by row. -/
def pairs (m : Filling) : List Pair :=
  m.columns.entries.flatMap fun (primary, tags) => tags.toList.map (Pair.mk primary)

variable {m : Filling}

section Queries

theorem isRelated_iff (primary secondary : String) :
    m.isRelated primary secondary = true ↔
      ∃ tags, m.columns.get? primary = some tags ∧ secondary ∈ tags.toList := by
  simp only [isRelated, Option.any_eq_true, SortedSet.contains, decide_eq_true_iff]

theorem mem_relatives (primary secondary : String) :
    secondary ∈ m.relatives primary ↔ m.isRelated primary secondary = true := by
  rw [isRelated_iff, relatives]
  cases m.columns.get? primary <;> simp

theorem increasing_relatives (primary : String) :
    (m.relatives primary).Pairwise fun s t => Rank.before s t = true := by
  unfold relatives
  cases m.columns.get? primary with
  | none => exact List.Pairwise.nil
  | some tags => exact tags.increasing

theorem mem_pairs (p : Pair) : p ∈ m.pairs ↔ m.isRelated p.primary p.secondary = true := by
  rw [isRelated_iff]
  simp only [pairs, List.mem_flatMap, Prod.exists, SortedMap.mem_entries, List.mem_map]
  constructor
  · rintro ⟨_, tags, hget, _, hmem, rfl⟩
    exact ⟨tags, hget, hmem⟩
  · rintro ⟨tags, hget, hmem⟩
    exact ⟨_, tags, hget, _, hmem, rfl⟩

theorem increasing_pairs (m : Filling) :
    m.pairs.Pairwise fun p q => Rank.before p q = true := by
  rw [pairs, List.pairwise_flatMap]
  refine ⟨fun entry _ => ?_, m.columns.increasing.imp ?_⟩
  · rw [List.pairwise_map]
    refine entry.2.increasing.imp fun {s t} hbefore => ?_
    exact (before_pair_iff ⟨entry.1, s⟩ ⟨entry.1, t⟩).mpr (Or.inr ⟨rfl, hbefore⟩)
  · intro entry other hbefore p hp q hq
    obtain ⟨_, -, rfl⟩ := List.mem_map.mp hp
    obtain ⟨_, -, rfl⟩ := List.mem_map.mp hq
    exact (before_pair_iff _ _).mpr (Or.inl hbefore)

/-- The columns of a row are determined by its relations, and by whether there are any. -/
theorem get?_columns_congr {m' : Filling} {primary : String}
    (hsome : (m'.columns.get? primary).isSome = (m.columns.get? primary).isSome)
    (hrelated : ∀ secondary, m'.isRelated primary secondary = m.isRelated primary secondary) :
    m'.columns.get? primary = m.columns.get? primary := by
  cases hget : m.columns.get? primary with
  | none =>
    rw [hget, Option.isSome_none, Option.isSome_eq_false_iff, Option.isNone_iff_eq_none] at hsome
    exact hsome
  | some tags =>
    rw [hget, Option.isSome_some, Option.isSome_iff_exists] at hsome
    obtain ⟨tags', hget'⟩ := hsome
    rw [hget']
    refine congrArg some (SortedSet.ext_mem fun secondary => ?_)
    have hflag := hrelated secondary
    simpa only [isRelated, hget, hget', Option.any_some, SortedSet.contains,
      decide_eq_decide] using hflag

end Queries

/-- The filled matrix, with its pairs in one set. -/
def matrix (m : Filling) : Matrix :=
  ⟨m.relationship, m.opposite, m.primaries, m.secondaries, ⟨m.pairs, m.increasing_pairs⟩⟩

/-- What the rows, the columns and their relations are once some pairs have been added. -/
structure Holds (m : Filling) (added : List Pair) : Prop where
  primaries_eq : m.primaries = (SortedSet.ofList (added.map Pair.primary)).toList
  secondaries_eq : m.secondaries = (SortedSet.ofList (added.map Pair.secondary)).toList
  isRelated_iff : ∀ primary secondary,
    m.isRelated primary secondary = true ↔ ⟨primary, secondary⟩ ∈ added
  isSome_iff : ∀ primary,
    (m.columns.get? primary).isSome = true ↔ ∃ p ∈ added, p.primary = primary

section Adding

theorem get?_add (p : Pair) (primary : String) :
    (m.add p).columns.get? primary = if primary = p.primary
      then some (((m.columns.get? p.primary).getD ∅).insert p.secondary)
      else m.columns.get? primary := SortedMap.get?_alter ..

theorem isRelated_add (p : Pair) (primary secondary : String) :
    (m.add p).isRelated primary secondary = true ↔
      ⟨primary, secondary⟩ = p ∨ m.isRelated primary secondary = true := by
  obtain ⟨row, column⟩ := p
  rw [isRelated_iff, isRelated_iff, get?_add]
  by_cases h : primary = row
  · subst h
    have hempty := SortedSet.mem_empty secondary
    cases m.columns.get? primary <;> simp [SortedSet.mem_insert, hempty]
  · simp [h]

/-- One more pair leaves rows, columns and relations as the earlier pairs and this one ask. -/
theorem Holds.add {added : List Pair} (h : m.Holds added) (p : Pair) :
    (m.add p).Holds (added ++ [p]) where
  primaries_eq := by
    rw [List.map_append, List.map_singleton, ← SortedSet.insertSorted_ofList, ← h.primaries_eq]
    rfl
  secondaries_eq := by
    rw [List.map_append, List.map_singleton, ← SortedSet.insertSorted_ofList, ← h.secondaries_eq]
    rfl
  isRelated_iff primary secondary := by
    rw [isRelated_add, h.isRelated_iff, List.mem_append, List.mem_singleton, or_comm]
  isSome_iff primary := by
    have hsome := h.isSome_iff primary
    rw [get?_add]
    by_cases hp : primary = p.primary
    · simp [hp]
    · simp [hp, hsome, Ne.symm hp]

variable (relationship opposite : String)

theorem holds_new : (new relationship opposite).Holds [] where
  primaries_eq := rfl
  secondaries_eq := rfl
  isRelated_iff primary secondary := by simp [isRelated, new]
  isSome_iff primary := by simp [new]

theorem holds_addAll (added : List Pair) :
    ((new relationship opposite).addAll added).Holds added := by
  induction added using List.reverseRecOn with
  | nil => exact holds_new relationship opposite
  | append_singleton added p ih =>
    rw [addAll, List.foldl_append]
    exact ih.add p

theorem names_addAll (added : List Pair) :
    ((new relationship opposite).addAll added).relationship = relationship ∧
      ((new relationship opposite).addAll added).opposite = opposite := by
  induction added using List.reverseRecOn with
  | nil => exact ⟨rfl, rfl⟩
  | append_singleton added p ih =>
    rw [addAll, List.foldl_append]
    exact ih

end Adding

namespace Holds

variable {m' : Filling} {added others : List Pair}

/-- The rows are the tags under which columns are kept. -/
theorem keys_columns (h : m.Holds added) : m.columns.keys = m.primaries := by
  rw [h.primaries_eq]
  refine Rank.eq_of_mem_iff (SortedMap.increasing_keys _) (SortedSet.increasing _) fun tag => ?_
  rw [SortedMap.mem_keys, h.isSome_iff, SortedSet.mem_ofList, List.mem_map]

theorem eq_of_mem_iff (h : m.Holds added) (h' : m'.Holds others)
    (hnames : m'.relationship = m.relationship ∧ m'.opposite = m.opposite)
    (hsame : ∀ p, p ∈ others ↔ p ∈ added) : m' = m := by
  have hset (f : Pair → String) :
      SortedSet.ofList (others.map f) = SortedSet.ofList (added.map f) :=
    SortedSet.ext_mem fun tag => by simp only [SortedSet.mem_ofList, List.mem_map, hsame]
  have hprimaries : m'.primaries = m.primaries := by
    rw [h'.primaries_eq, h.primaries_eq, hset]
  have hsecondaries : m'.secondaries = m.secondaries := by
    rw [h'.secondaries_eq, h.secondaries_eq, hset]
  have hcolumns : m'.columns = m.columns := by
    refine SortedMap.ext_get? fun primary => get?_columns_congr ?_ fun secondary => ?_
    · rw [Bool.eq_iff_iff, h'.isSome_iff, h.isSome_iff]
      simp only [hsame]
    · rw [Bool.eq_iff_iff, h'.isRelated_iff, h.isRelated_iff, hsame]
  exact Filling.ext hnames.1 hnames.2 hprimaries hsecondaries hcolumns

theorem matrix_eq (h : m.Holds added) :
    m.matrix = ofPairs m.relationship m.opposite added := by
  have hpairs : ⟨m.pairs, m.increasing_pairs⟩ = SortedSet.ofList added :=
    SortedSet.ext_mem fun p => by rw [SortedSet.mem_ofList, mem_pairs, h.isRelated_iff]
  rw [matrix, ofPairs, h.primaries_eq, h.secondaries_eq, hpairs]

end Holds

/-- Whatever the order and the repetitions in which pairs are added to a new matrix, its rows
and columns are the tags that stand in them, in strict order, and the rows are those that have
columns. Two tags are related if and only if their pair was added. The pairs are listed once
each, row by row; the relatives and the flags of a row are those of its pairs. Matrices are equal
exactly if the same pairs were added to them. -/
theorem addAll_exact (relationship opposite : String) (added : List Pair) :
    let m := (new relationship opposite).addAll added
    (m.relationship = relationship ∧ m.opposite = opposite) ∧
    (m.primaries.Pairwise (fun p q => Rank.before p q = true) ∧
      ∀ tag, tag ∈ m.primaries ↔ ∃ p ∈ added, p.primary = tag) ∧
    (m.secondaries.Pairwise (fun p q => Rank.before p q = true) ∧
      ∀ tag, tag ∈ m.secondaries ↔ ∃ p ∈ added, p.secondary = tag) ∧
    m.columns.keys = m.primaries ∧
    (∀ primary secondary,
      m.isRelated primary secondary = true ↔ ⟨primary, secondary⟩ ∈ added) ∧
    (m.pairs.Pairwise (fun p q => Rank.before p.primary q.primary = true ∨
        p.primary = q.primary ∧ Rank.before p.secondary q.secondary = true) ∧
      ∀ p, p ∈ m.pairs ↔ p ∈ added) ∧
    (∀ primary, (m.relatives primary).Pairwise (fun s t => Rank.before s t = true) ∧
      ∀ secondary, secondary ∈ m.relatives primary ↔ ⟨primary, secondary⟩ ∈ added) ∧
    (∀ primary, m.row primary =
      m.secondaries.map fun secondary => decide (⟨primary, secondary⟩ ∈ added)) ∧
    m.matrix = ofPairs relationship opposite added ∧
    ∀ others, (new relationship opposite).addAll others = m ↔ ∀ p, p ∈ others ↔ p ∈ added := by
  intro m
  have hm : m.Holds added := holds_addAll relationship opposite added
  have hnames := names_addAll relationship opposite added
  refine ⟨hnames, ⟨?_, fun tag => ?_⟩, ⟨?_, fun tag => ?_⟩, hm.keys_columns, hm.isRelated_iff,
    ⟨m.increasing_pairs.imp fun hbefore => (before_pair_iff _ _).mp hbefore, fun p => ?_⟩,
    fun primary => ⟨increasing_relatives primary, fun secondary => ?_⟩, fun primary => ?_, ?_,
    fun others => ⟨fun heq p => ?_, fun hsame => ?_⟩⟩
  · rw [hm.primaries_eq]
    exact SortedSet.increasing _
  · rw [hm.primaries_eq, SortedSet.mem_ofList, List.mem_map]
  · rw [hm.secondaries_eq]
    exact SortedSet.increasing _
  · rw [hm.secondaries_eq, SortedSet.mem_ofList, List.mem_map]
  · rw [mem_pairs, hm.isRelated_iff]
  · rw [mem_relatives, hm.isRelated_iff]
  · refine List.map_congr_left fun secondary _ => ?_
    rw [Bool.eq_iff_iff, hm.isRelated_iff, decide_eq_true_iff]
  · rw [hm.matrix_eq, hnames.1, hnames.2]
  · rw [← hm.isRelated_iff, ← heq, (holds_addAll relationship opposite others).isRelated_iff]
  · have hothers := names_addAll relationship opposite others
    exact hm.eq_of_mem_iff (holds_addAll relationship opposite others)
      ⟨hothers.1.trans hnames.1.symm, hothers.2.trans hnames.2.symm⟩ hsame

/-- A pair that is added again and another order make no difference. -/
example :
    (new "child" "parent").addAll [⟨"LYRA", "VEGA"⟩, ⟨"AQUILA", "ALTAIR"⟩, ⟨"LYRA", "VEGA"⟩] =
      (new "child" "parent").addAll [⟨"AQUILA", "ALTAIR"⟩, ⟨"LYRA", "VEGA"⟩] := by
  decide +kernel

end Filling

end Matrix

end Traceability
