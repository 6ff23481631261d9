import Traceability.Proofs.Sorted.Lookup
import Traceability.Proofs.Matrix.Ranges

/-!
A matrix is the sum of its pages. The pages divide its rows and columns like a grid,
so that every cell lies in one page only, and each page shows of a row and of the
pairs exactly what lies inside it.
-/

namespace Traceability

/-- Where no two members share a property that one of them has, it is counted once. -/
theorem countP_eq_one_of_pairwise {α : Type} {p : α → Bool} {l : List α}
    (hapart : l.Pairwise fun a b => ¬ (p a = true ∧ p b = true)) (h : ∃ a ∈ l, p a = true) :
    l.countP p = 1 := by
  induction l with
  | nil =>
    obtain ⟨a, hmem, -⟩ := h
    contradiction
  | cons a l ih =>
    rw [List.pairwise_cons] at hapart
    cases ha : p a with
    | true =>
      have hnone : l.countP p = 0 := by
        rw [List.countP_eq_zero]
        intro b hb hpb
        exact hapart.1 b hb ⟨ha, hpb⟩
      rw [List.countP_cons_of_pos ha, hnone]
    | false =>
      obtain ⟨b, hb, hpb⟩ := h
      rcases List.mem_cons.mp hb with rfl | hb
      · rw [ha] at hpb
        contradiction
      · rw [List.countP_cons_of_neg (by simp [ha])]
        exact ih hapart.2 ⟨b, hb, hpb⟩

/-- In a grid that is listed row by row, a row starts at a multiple of the width. -/
theorem getElem?_flatMap_map {α β γ : Type} (f : α → β → γ) (columns : List β) {rows : List α}
    {i j : Nat} {row : α} {column : β} (hrow : rows[i]? = some row)
    (hcolumn : columns[j]? = some column) :
    (rows.flatMap fun row => columns.map (f row))[i * columns.length + j]? =
      some (f row column) := by
  have hj : j < columns.length := (List.getElem?_eq_some_iff.mp hcolumn).1
  induction rows generalizing i with
  | nil => simp at hrow
  | cons first rows ih =>
    rw [List.flatMap_cons]
    cases i with
    | zero =>
      rw [List.getElem?_cons_zero, Option.some.injEq] at hrow
      rw [Nat.zero_mul, Nat.zero_add, List.getElem?_append_left (by simpa using hj),
        List.getElem?_map, hcolumn, hrow]
      rfl
    | succ i =>
      rw [List.getElem?_cons_succ] at hrow
      rw [List.getElem?_append_right (by rw [List.length_map, Nat.succ_mul]; omega),
        List.length_map]
      have hindex : (i + 1) * columns.length + j - columns.length = i * columns.length + j := by
        rw [Nat.succ_mul]
        omega
      rw [hindex]
      exact ih hrow

theorem filterMap_range_length {α β : Type} {l : List α} {f : Nat → Option β} {g : α → β}
    (h : ∀ i a, l[i]? = some a → f i = some (g a)) :
    (List.range l.length).filterMap f = l.map g := by
  induction l using List.reverseRecOn with
  | nil => rfl
  | append_singleton l a ih =>
    have hlast : f l.length = some (g a) := h l.length a (by simp)
    have hbefore : ∀ i b, l[i]? = some b → f i = some (g b) := by
      intro i b hb
      refine h i b ?_
      rw [List.getElem?_append_left (List.getElem?_eq_some_iff.mp hb).1, hb]
    rw [List.length_append, List.length_singleton, List.range_succ, List.filterMap_append,
      ih hbefore, List.map_append]
    simp [hlast]

namespace Matrix

/-- The cell of a row and a column. -/
def Covers (m : Matrix) (primary secondary : String) : Prop :=
  primary ∈ m.primaries ∧ secondary ∈ m.secondaries

instance (m : Matrix) (primary secondary : String) : Decidable (m.Covers primary secondary) :=
  inferInstanceAs (Decidable (_ ∧ _))

/-- Rows and columns do not repeat, and every pair has a cell. -/
structure WellFormed (m : Matrix) : Prop where
  nodup_primaries : m.primaries.Nodup
  nodup_secondaries : m.secondaries.Nodup
  covers : ∀ p ∈ m.pairs.toList, m.Covers p.primary p.secondary

theorem wellFormed_ofPairs (relationship opposite : String) (pairs : List Pair) :
    (ofPairs relationship opposite pairs).WellFormed where
  nodup_primaries := SortedSet.nodup _
  nodup_secondaries := SortedSet.nodup _
  covers := by
    intro p hp
    have hmem : p ∈ pairs := SortedSet.mem_ofList.mp hp
    exact ⟨SortedSet.mem_ofList.mpr (List.mem_map_of_mem hmem),
      SortedSet.mem_ofList.mpr (List.mem_map_of_mem hmem)⟩

theorem isRelated_iff (m : Matrix) (primary secondary : String) :
    m.isRelated primary secondary = true ↔ ⟨primary, secondary⟩ ∈ m.pairs.toList :=
  decide_eq_true_iff

theorem mem_pairs_page (m : Matrix) (rows columns : Nat × Nat) (p : Pair) :
    p ∈ (m.page rows columns).pairs.toList ↔
      p ∈ m.pairs.toList ∧ (m.page rows columns).Covers p.primary p.secondary := by
  simp [page, Covers, SortedSet.filter]

/-- A page shows the part of a row that its columns cut out. -/
theorem row_page (m : Matrix) (rows columns : Nat × Nat) {primary : String}
    (h : primary ∈ (m.page rows columns).primaries) :
    (m.page rows columns).row primary =
      ((m.row primary).drop columns.1).take (columns.2 - columns.1) := by
  have hrow : ((m.row primary).drop columns.1).take (columns.2 - columns.1) =
      (m.page rows columns).secondaries.map (m.isRelated primary) := by
    rw [row, ← List.map_drop, ← List.map_take]
    rfl
  rw [hrow, row]
  apply List.map_congr_left
  intro secondary hsecondary
  rw [Bool.eq_iff_iff, isRelated_iff, isRelated_iff, mem_pairs_page]
  exact and_iff_left ⟨h, hsecondary⟩

section Split

variable (m : Matrix) (maxSecondaries maxPrimaries : Option Nat)

theorem mem_split (page : Matrix) :
    page ∈ m.split maxSecondaries maxPrimaries ↔
      ∃ rows ∈ ranges m.primaries.length maxPrimaries,
        ∃ columns ∈ ranges m.secondaries.length maxSecondaries, m.page rows columns = page := by
  simp only [split, List.mem_flatMap, List.mem_map]

theorem exists_covers_split {primary secondary : String} (h : m.Covers primary secondary) :
    ∃ page ∈ m.split maxSecondaries maxPrimaries, page.Covers primary secondary := by
  obtain ⟨hprimary, hsecondary⟩ := h
  rw [← flatMap_slice_ranges m.primaries maxPrimaries] at hprimary
  rw [← flatMap_slice_ranges m.secondaries maxSecondaries] at hsecondary
  obtain ⟨rows, hrows, hprimary⟩ := List.mem_flatMap.mp hprimary
  obtain ⟨columns, hcolumns, hsecondary⟩ := List.mem_flatMap.mp hsecondary
  exact ⟨m.page rows columns, (mem_split ..).mpr ⟨rows, hrows, columns, hcolumns, rfl⟩,
    hprimary, hsecondary⟩

variable {m}

/-- Two pages have different rows or different columns. -/
theorem pairwise_split (h : m.WellFormed) :
    (m.split maxSecondaries maxPrimaries).Pairwise fun page other =>
      ∀ primary secondary, ¬ (page.Covers primary secondary ∧ other.Covers primary secondary) := by
  have apart (l : List String) (hl : l.Nodup) (size : Option Nat) :
      (ranges l.length size).Pairwise fun r r' => List.Disjoint (slice l r) (slice l r') := by
    rw [← flatMap_slice_ranges l size] at hl
    exact (List.nodup_flatMap.mp hl).2
  rw [split, List.pairwise_flatMap]
  constructor
  · intro rows _
    rw [List.pairwise_map]
    refine (apart m.secondaries h.nodup_secondaries maxSecondaries).imp ?_
    intro columns columns' hdisjoint primary secondary hboth
    exact hdisjoint hboth.1.2 hboth.2.2
  · refine (apart m.primaries h.nodup_primaries maxPrimaries).imp ?_
    intro rows rows' hdisjoint page hpage other hother primary secondary hboth
    obtain ⟨columns, -, rfl⟩ := List.mem_map.mp hpage
    obtain ⟨columns', -, rfl⟩ := List.mem_map.mp hother
    exact hdisjoint hboth.1.1 hboth.2.1

theorem mem_pairs_split (h : m.WellFormed) (p : Pair) :
    p ∈ m.pairs.toList ↔
      ∃ page ∈ m.split maxSecondaries maxPrimaries, p ∈ page.pairs.toList := by
  constructor
  · intro hp
    obtain ⟨page, hpage, hcovers⟩ :=
      exists_covers_split m maxSecondaries maxPrimaries (h.covers p hp)
    obtain ⟨rows, -, columns, -, rfl⟩ := (mem_split ..).mp hpage
    exact ⟨_, hpage, (mem_pairs_page ..).mpr ⟨hp, hcovers⟩⟩
  · intro hparts
    obtain ⟨page, hpage, hp⟩ := hparts
    obtain ⟨rows, -, columns, -, rfl⟩ := (mem_split ..).mp hpage
    exact ((mem_pairs_page ..).mp hp).1

variable (m)

/-- The page with the numbers of its ranges. -/
theorem getElem?_split {i j : Nat} {rows columns : Nat × Nat}
    (hrows : (ranges m.primaries.length maxPrimaries)[i]? = some rows)
    (hcolumns : (ranges m.secondaries.length maxSecondaries)[j]? = some columns) :
    (m.split maxSecondaries maxPrimaries)[
      i * (ranges m.secondaries.length maxSecondaries).length + j]? = some (m.page rows columns) :=
  getElem?_flatMap_map m.page _ hrows hcolumns

theorem length_split :
    (m.split maxSecondaries maxPrimaries).length =
      (ranges m.primaries.length maxPrimaries).length *
        (ranges m.secondaries.length maxSecondaries).length := by
  simp [split, List.length_flatMap]

/-- The pages of the first columns hold all rows, one range after the other. -/
theorem flatMap_primaries_split :
    ((List.range (ranges m.primaries.length maxPrimaries).length).filterMap fun i =>
      (m.split maxSecondaries maxPrimaries)[
        i * (ranges m.secondaries.length maxSecondaries).length]?).flatMap primaries =
      m.primaries := by
  obtain ⟨columns, rest, hcolumns⟩ :=
    List.exists_cons_of_ne_nil (ranges_ne_nil m.secondaries.length maxSecondaries)
  rw [filterMap_range_length (g := fun rows => m.page rows columns), List.flatMap_map]
  · exact flatMap_slice_ranges m.primaries maxPrimaries
  · intro i rows hrows
    exact getElem?_split m maxSecondaries maxPrimaries (j := 0) hrows (by rw [hcolumns]; rfl)

/-- The pages of the first rows hold all columns, one range after the other. -/
theorem flatMap_secondaries_split :
    ((List.range (ranges m.secondaries.length maxSecondaries).length).filterMap fun j =>
      (m.split maxSecondaries maxPrimaries)[j]?).flatMap secondaries = m.secondaries := by
  obtain ⟨rows, rest, hrows⟩ :=
    List.exists_cons_of_ne_nil (ranges_ne_nil m.primaries.length maxPrimaries)
  rw [filterMap_range_length (g := fun columns => m.page rows columns), List.flatMap_map]
  · exact flatMap_slice_ranges m.secondaries maxSecondaries
  · intro j columns hcolumns
    have hpage := getElem?_split m maxSecondaries maxPrimaries (i := 0) (by rw [hrows]; rfl) hcolumns
    rwa [Nat.zero_mul, Nat.zero_add] at hpage

theorem length_slice_ranges_le (l : List String) {limit : Nat} (hlimit : 0 < limit)
    {range : Nat × Nat} (h : range ∈ ranges l.length (some limit)) :
    (slice l range).length ≤ limit :=
  (length_slice_le l range).trans (width_le_of_mem_ranges hlimit h)

end Split

/-- Whatever the limits, the pages of a matrix are the cells of a grid, listed row by
row, that together make up its rows, its columns, its cells and its pairs. -/
theorem split_partitions (relationship opposite : String) (pairs : List Pair)
    (maxSecondaries maxPrimaries : Option Nat) :
    let m := ofPairs relationship opposite pairs
    let rows := ranges m.primaries.length maxPrimaries
    let columns := ranges m.secondaries.length maxSecondaries
    let pages := m.split maxSecondaries maxPrimaries
    (pages.length = rows.length * columns.length ∧
      ∀ i j row column, rows[i]? = some row → columns[j]? = some column →
        ∃ page, pages[i * columns.length + j]? = some page ∧
          page.primaries = slice m.primaries row ∧ page.secondaries = slice m.secondaries column ∧
          ∀ primary ∈ page.primaries, page.row primary =
            ((m.row primary).drop column.1).take (column.2 - column.1)) ∧
    (∀ primary secondary, m.Covers primary secondary →
      pages.countP (fun page => decide (page.Covers primary secondary)) = 1) ∧
    (((List.range rows.length).filterMap fun i => pages[i * columns.length]?).flatMap
        Matrix.primaries = m.primaries ∧
      ((List.range columns.length).filterMap fun j => pages[j]?).flatMap
        Matrix.secondaries = m.secondaries) ∧
    (∀ page ∈ pages, ∀ limit, 0 < limit →
      (maxPrimaries = some limit → page.primaries.length ≤ limit) ∧
        (maxSecondaries = some limit → page.secondaries.length ≤ limit)) ∧
    pages.Pairwise (fun page other => ∀ p ∈ page.pairs.toList, p ∉ other.pairs.toList) ∧
    ∀ p, p ∈ m.pairs.toList ↔ ∃ page ∈ pages, p ∈ page.pairs.toList := by
  intro m rows columns pages
  have hm : m.WellFormed := wellFormed_ofPairs relationship opposite pairs
  have hapart := pairwise_split maxSecondaries maxPrimaries hm
  refine ⟨⟨length_split m maxSecondaries maxPrimaries, ?_⟩, ?_,
    ⟨flatMap_primaries_split m maxSecondaries maxPrimaries,
      flatMap_secondaries_split m maxSecondaries maxPrimaries⟩, ?_, ?_,
    mem_pairs_split maxSecondaries maxPrimaries hm⟩
  · intro i j row column hrow hcolumn
    exact ⟨m.page row column, getElem?_split m maxSecondaries maxPrimaries hrow hcolumn, rfl, rfl,
      fun primary hprimary => row_page m row column hprimary⟩
  · intro primary secondary hcovers
    apply countP_eq_one_of_pairwise
    · refine hapart.imp ?_
      intro page other hpage hboth
      exact hpage primary secondary (by simpa using hboth)
    · obtain ⟨page, hpage, hcell⟩ :=
        exists_covers_split m maxSecondaries maxPrimaries hcovers
      exact ⟨page, hpage, decide_eq_true hcell⟩
  · intro page hpage limit hlimit
    obtain ⟨row, hrow, column, hcolumn, rfl⟩ := (mem_split ..).mp hpage
    constructor
    · rintro rfl
      exact length_slice_ranges_le m.primaries hlimit hrow
    · rintro rfl
      exact length_slice_ranges_le m.secondaries hlimit hcolumn
  · refine hapart.imp_of_mem ?_
    intro page other hpage hother hne p hp hp'
    obtain ⟨row, -, column, -, rfl⟩ := (mem_split ..).mp hpage
    obtain ⟨row', -, column', -, rfl⟩ := (mem_split ..).mp hother
    exact hne p.primary p.secondary
      ⟨((mem_pairs_page ..).mp hp).2, ((mem_pairs_page ..).mp hp').2⟩

/-- A page without relatives of a row keeps the row. -/
example :
    ((ofPairs "child" "parent"
        [⟨"CEPHEUS", "AQUILA"⟩, ⟨"CEPHEUS", "LYRA"⟩, ⟨"SAGITTA", "AURIGA"⟩]).split
      (some 2) none).map (fun page => (page.primaries, page.row "SAGITTA")) =
      [(["CEPHEUS", "SAGITTA"], [false, true]), (["CEPHEUS", "SAGITTA"], [false])] := by
  decide

end Matrix

end Traceability
