import Mathlib.Data.List.Forall2
import Traceability.Session
import Traceability.View.Format
import Traceability.Proofs.Text.Lines
import Traceability.Proofs.Text.Trimmed

/-!
Tables are read back by the widths of their columns: a cell stands behind the columns before it
and reaches at most as far as the longest cell of its own. A line feed in a row is written as it
is. So a row is one line unless a line feed has something but blanks behind it in the row.
-/

namespace Traceability

namespace Text

/-- The characters of a text from a place on, but no more than a number of them. -/
def field (place length : Nat) (s : List Char) : List Char := (s.drop place).take length

theorem field_append_right (s t : List Char) (place length : Nat) :
    field (s.length + place) length (s ++ t) = field place length t := by
  rw [field, List.drop_length_add_append, field]

theorem field_append_left (s t : List Char) : field 0 s.length (s ++ t) = s := by
  rw [field, List.drop_zero, List.take_left]

/-- A piece of a joined text stands behind the pieces before it, each with a separator. -/
theorem field_join (separator : List Char) {pieces : List (List Char)} {j : Nat}
    {piece : List Char} (h : pieces[j]? = some piece) :
    field ((pieces.take j).flatMap (· ++ separator)).length piece.length
      (join separator pieces) = piece := by
  induction pieces generalizing j with
  | nil => contradiction
  | cons first rest ih =>
    cases j with
    | zero =>
      obtain rfl : first = piece := Option.some.inj h
      rw [join_cons]
      exact field_append_left ..
    | succ j =>
      rw [List.getElem?_cons_succ] at h
      cases rest with
      | nil => contradiction
      | cons next rest =>
        rw [List.take_succ_cons, List.flatMap_cons, List.length_append, join, field_append_right,
          ih h]

/-- Blanks that are trimmed away leave a field as it is, up to blanks at its end. -/
theorem trimEnd_field_trimEnd (place length : Nat) (s : List Char) :
    trimEnd (field place length (trimEnd s)) = trimEnd (field place length s) := by
  obtain ⟨trail, hend, htrail⟩ := exists_trimEnd s
  have hfield : field place length (trimEnd s ++ trail) = field place length (trimEnd s) ++
      field (place - (trimEnd s).length) (length - ((trimEnd s).drop place).length) trail := by
    rw [field, List.drop_append, List.take_append, field, field]
  rw [← hend] at hfield
  rw [hfield, trimEnd_append_blank]
  intro c hc
  exact htrail c (List.mem_of_mem_drop (List.mem_of_mem_take hc))

theorem filter_join {p : Char → Bool} {separator : List Char} (h : separator.filter p = [])
    (pieces : List (List Char)) :
    (join separator pieces).filter p = (pieces.map (List.filter p)).flatten := by
  cases pieces with
  | nil => rfl
  | cons first rest =>
    rw [join_cons, List.filter_append, List.filter_flatMap, List.map_cons, List.flatten_cons,
      ← List.flatMap_def]
    simp only [List.filter_append, h, List.nil_append]

theorem mem_trimEnd_cons {b c : Char} (hb : isBlank b = true) (s : List Char) :
    b ∈ trimEnd (c :: s) ↔ c = b ∧ s.all isBlank = false ∨ b ∈ trimEnd s := by
  cases hs : s.all isBlank with
  | true =>
    have hblank : ∀ x ∈ s, isBlank x = true := List.all_eq_true.mp hs
    have hnil : trimEnd s = [] := trimEnd_append_blank [] hblank
    rw [← List.singleton_append, trimEnd_append_blank [c] hblank, hnil]
    cases hc : isBlank c with
    | true => simp [trimEnd, hc]
    | false =>
      have hne : b ≠ c := by
        rintro rfl
        rw [hb] at hc
        contradiction
      simp [trimEnd, hc, hne]
  | false =>
    have hreverse : s.reverse.all isBlank = false := by rw [List.all_reverse, hs]
    have hcons : trimEnd (c :: s) = c :: trimEnd s := by
      rw [trimEnd, List.reverse_cons, ← trimStart, trimStart_append hreverse, List.reverse_append]
      rfl
    rw [hcons, List.mem_cons, eq_comm]
    simp

/-- Which line feeds are trimmed away does not depend on the spaces. -/
theorem lineFeed_mem_trimEnd_filter (s : List Char) :
    '\n' ∈ trimEnd (s.filter (· != ' ')) ↔ '\n' ∈ trimEnd s := by
  have hspaces (s : List Char) : (s.filter (· != ' ')).all isBlank = s.all isBlank := by
    rw [List.all_filter]
    congr 1
    funext c
    by_cases hc : c = ' '
    · subst hc
      rfl
    · simp [hc]
  induction s with
  | nil => rfl
  | cons c s ih =>
    rw [mem_trimEnd_cons rfl, List.filter_cons]
    by_cases hc : c = ' '
    · simp [hc, ih]
    · rw [if_pos (by simpa using hc), mem_trimEnd_cons rfl, hspaces]
      exact or_congr_right ih

end Text

namespace View

open Text

theorem toList_ofLines (lines : List String) :
    (ofLines lines).toList = unlines (lines.map String.toList) := by
  rw [ofLines, String.toList_join, List.flatMap_map, unlines, List.flatMap_map]
  congr 1
  funext line
  exact String.toList_append

namespace Table

/-- The length of the longest cell in a column. -/
def columnWidth (grid : List (List (List Char))) (k : Nat) : Nat :=
  (grid.map fun row => (row.getD k []).length).foldr max 0

/-- Where a column starts: behind the columns before it, each with two blanks after it. -/
def start (grid : List (List (List Char))) : Nat → Nat
  | 0 => 0
  | j + 1 => start grid j + columnWidth grid j + 2

/-- Each of the cells stands in its column of the line, up to blanks at the end. -/
def Shows (grid : List (List (List Char))) (line : List Char) (cells : List (List Char)) : Prop :=
  ∀ j cell, cells[j]? = some cell →
    trimEnd (field (start grid j) (columnWidth grid j) line) = trimEnd cell

section Widths

theorem length_le_columnWidth {grid : List (List (List Char))} {row : List (List Char)}
    (hrow : row ∈ grid) {k : Nat} {cell : List Char} (hcell : row[k]? = some cell) :
    cell.length ≤ columnWidth grid k := by
  induction grid with
  | nil => exact absurd hrow List.not_mem_nil
  | cons first grid ih =>
    rw [columnWidth, List.map_cons, List.foldr_cons, ← columnWidth]
    rcases List.mem_cons.mp hrow with rfl | hrow
    · rw [List.getD_eq_getElem?_getD, hcell]
      exact Nat.le_max_left ..
    · exact Nat.le_trans (ih hrow) (Nat.le_max_right ..)

theorem length_widen {widths : List Nat} {cells : List (List Char)}
    (h : cells.length = widths.length) : (widen widths cells).length = widths.length := by
  rw [widen, List.length_zipWith, h, Nat.min_self]

theorem getElem?_widen {widths : List Nat} {cells : List (List Char)}
    (h : cells.length = widths.length) (k : Nat) :
    (widen widths cells)[k]? = widths[k]?.map fun width => max width (cells.getD k []).length := by
  rw [widen, List.getElem?_zipWith, List.getD_eq_getElem?_getD]
  by_cases hk : k < widths.length <;> simp [hk, h]

/-- Widening by one row after the other gives the width of the columns. -/
theorem getElem?_foldl_widen {rows : List (List (List Char))} {widths : List Nat}
    (h : ∀ row ∈ rows, row.length = widths.length) (k : Nat) :
    (rows.foldl widen widths)[k]? = widths[k]?.map fun width => max width (columnWidth rows k) := by
  induction rows generalizing widths with
  | nil => simp [columnWidth]
  | cons row rows ih =>
    obtain ⟨hrow, hrows⟩ := List.forall_mem_cons.mp h
    rw [List.foldl_cons, ih fun r hr => (hrows r hr).trans (length_widen hrow).symm,
      getElem?_widen hrow, Option.map_map]
    congr 1
    funext width
    exact Nat.max_assoc ..

theorem widths_eq {header : List (List Char)} {rows : List (List (List Char))}
    (h : ∀ row ∈ rows, row.length = header.length) :
    widths header rows = (List.range header.length).map (columnWidth (header :: rows)) := by
  apply List.ext_getElem?
  intro k
  rw [widths, getElem?_foldl_widen (by simpa using h)]
  by_cases hk : k < header.length <;> simp [hk, columnWidth]

end Widths

section Line

variable {grid : List (List (List Char))} {cells : List (List Char)}

theorem trimEnd_pad (width : Nat) (cell : List Char) : trimEnd (pad width cell) = trimEnd cell :=
  trimEnd_append_blank cell fun c hc => by
    rw [List.eq_of_mem_replicate hc]
    rfl

theorem length_pad {width : Nat} {cell : List Char} (h : cell.length ≤ width) :
    (pad width cell).length = width := by
  rw [pad, List.length_append, List.length_replicate]
  omega

section Fitting

variable {n : Nat} (hlength : cells.length = n)
  (hfit : ∀ j cell, cells[j]? = some cell → cell.length ≤ columnWidth grid j)
include hlength hfit

omit hfit in
theorem getElem?_padded {j : Nat} {cell : List Char} (hcell : cells[j]? = some cell) :
    (List.zipWith pad ((List.range n).map (columnWidth grid)) cells)[j]? =
      some (pad (columnWidth grid j) cell) := by
  have hj : j < n := hlength ▸ (List.getElem?_eq_some_iff.mp hcell).1
  simp [List.getElem?_zipWith, hcell, hj]

/-- Padded cells are as long as their columns are wide, so they end where the columns end. -/
theorem start_eq {j : Nat} (hj : j ≤ n) :
    start grid j = (((List.zipWith pad ((List.range n).map (columnWidth grid)) cells).take j).flatMap
      (· ++ [' ', ' '])).length := by
  induction j with
  | zero => rfl
  | succ j ih =>
    have hcell : cells[j]? = some cells[j] := List.getElem?_eq_getElem (hlength ▸ hj)
    rw [start, ih (Nat.le_of_succ_le hj), List.take_add_one, getElem?_padded hlength hcell,
      Option.toList_some, List.flatMap_append, List.length_append, List.flatMap_singleton,
      List.length_append, length_pad (hfit j _ hcell)]
    rfl

theorem shows_line : Shows grid (line ((List.range n).map (columnWidth grid)) cells) cells := by
  intro j cell hcell
  have hj : j < n := hlength ▸ (List.getElem?_eq_some_iff.mp hcell).1
  have hpiece : (List.zipWith pad ((List.range n).map (columnWidth grid)) cells)[j]? =
      some (pad (columnWidth grid j) cell) := getElem?_padded hlength hcell
  have hfield := field_join [' ', ' '] hpiece
  rw [← start_eq hlength hfit (Nat.le_of_lt hj), length_pad (hfit j cell hcell)] at hfield
  rw [line, trimEnd_field_trimEnd, hfield, trimEnd_pad]

end Fitting

/-- Padding and separators are spaces, so they bring a line feed neither in nor out. -/
theorem lineFeed_mem_line_iff {widths : List Nat} (h : cells.length = widths.length) :
    '\n' ∈ line widths cells ↔ '\n' ∈ trimEnd cells.flatten := by
  -- Without its spaces the line is the text of the cells, and trimming takes the same line feeds.
  have hpadded : (List.zipWith pad widths cells).map (List.filter (· != ' ')) =
      cells.map (List.filter (· != ' ')) := by
    apply List.ext_getElem?
    intro j
    rw [List.getElem?_map, List.getElem?_map, List.getElem?_zipWith]
    by_cases hj : j < widths.length
    · have hcell : cells[j]? = some cells[j] := List.getElem?_eq_getElem (h ▸ hj)
      simp [hj, hcell, pad]
    · simp [hj, h]
  rw [line, ← lineFeed_mem_trimEnd_filter, ← lineFeed_mem_trimEnd_filter cells.flatten,
    filter_join rfl, hpadded, List.filter_flatten]

end Line

section Lines

variable {header : List (List Char)} {rows : List (List (List Char))}
  (h : ∀ row ∈ rows, row.length = header.length)
include h

theorem length_eq_of_mem {row : List (List Char)} (hrow : row ∈ header :: rows) :
    row.length = header.length := by
  rcases List.mem_cons.mp hrow with rfl | hrow
  · rfl
  · exact h row hrow

theorem shows_row {row : List (List Char)} (hrow : row ∈ header :: rows) :
    Shows (header :: rows) (line (widths header rows) row) row := by
  rw [widths_eq h]
  exact shows_line (length_eq_of_mem h hrow) fun j cell => length_le_columnWidth hrow

theorem shows_rule :
    Shows (header :: rows)
      (line (widths header rows) ((widths header rows).map fun n => List.replicate n '-'))
      ((List.range header.length).map fun k =>
        List.replicate (columnWidth (header :: rows) k) '-') := by
  rw [widths_eq h, List.map_map]
  refine shows_line (by simp) fun j cell hcell => ?_
  obtain ⟨-, rfl⟩ : j < header.length ∧
      List.replicate (columnWidth (header :: rows) j) '-' = cell := by
    simpa [List.getElem?_eq_some_iff] using hcell
  exact Nat.le_of_eq List.length_replicate

omit h in
theorem lineFeed_notMem_rule (widths : List Nat) :
    '\n' ∉ line widths (widths.map fun n => List.replicate n '-') := by
  rw [lineFeed_mem_line_iff (by simp)]
  intro hmem
  obtain ⟨trail, hend, -⟩ := exists_trimEnd (widths.map fun n => List.replicate n '-').flatten
  have hdash : '\n' ∈ (widths.map fun n => List.replicate n '-').flatten := by
    rw [hend]
    exact List.mem_append_left _ hmem
  simp at hdash

theorem lineFeed_notMem_lines_iff :
    (∀ line ∈ lines header rows, '\n' ∉ line) ↔
      ∀ row ∈ header :: rows, '\n' ∉ trimEnd row.flatten := by
  have hwidths : (widths header rows).length = header.length := by rw [widths_eq h]; simp
  have hrow : ∀ row ∈ header :: rows, '\n' ∉ line (widths header rows) row ↔
      '\n' ∉ trimEnd row.flatten := fun row hrow =>
    not_congr (lineFeed_mem_line_iff ((length_eq_of_mem h hrow).trans hwidths.symm))
  rw [lines, List.forall_mem_cons, List.forall_mem_cons, List.forall_mem_map,
    List.forall_mem_cons, hrow header List.mem_cons_self]
  refine and_congr_right fun _ => (and_iff_right (lineFeed_notMem_rule _)).trans ?_
  exact forall₂_congr fun row hmem => hrow row (List.mem_cons_of_mem _ hmem)

end Lines

/-- No line feed stands before a character of the row that is not blank. -/
def Unbroken (row : List String) : Prop := '\n' ∉ trimEnd (row.flatMap String.toList)

instance (row : List String) : Decidable (Unbroken row) :=
  inferInstanceAs (Decidable ('\n' ∉ trimEnd (row.flatMap String.toList)))

/-- The text is a header line, a rule of dashes and a line for each row, in this order, and each
cell stands in its column, up to blanks at the end. -/
def ReadsBack (output : String) (header : List String) (rows : List (List String)) : Prop :=
  let grid := (header :: rows).map (·.map String.toList)
  ∃ top rule body, output.toList = unlines (top :: rule :: body) ∧
    (∀ line ∈ top :: rule :: body, '\n' ∉ line) ∧
    List.Forall₂ (Shows grid) (top :: body) grid ∧
    Shows grid rule ((List.range header.length).map fun k =>
      List.replicate (columnWidth grid k) '-')

theorem ReadsBack.count_lineFeed {output : String} {header : List String}
    {rows : List (List String)} (h : ReadsBack output header rows) :
    output.toList.count '\n' = rows.length + 2 := by
  obtain ⟨top, rule, body, htext, hfeed, hshows, -⟩ := h
  have hlength := hshows.length_eq
  rw [htext, count_unlines hfeed]
  simp only [List.length_cons, List.length_map] at hlength ⊢
  omega

theorem toList_table (header : List String) (rows : List (List String)) :
    (table header rows).toList =
      unlines (lines (header.map String.toList) (rows.map (·.map String.toList))) := by
  rw [table, toList_ofLines, List.map_map]
  congr 1
  exact List.map_id'' (fun _ => String.toList_ofList) _

/-- A table is read back exactly if no line feed breaks a row or the header. -/
theorem readsBack_table_iff {header : List String} {rows : List (List String)}
    (h : ∀ row ∈ rows, row.length = header.length) :
    ReadsBack (table header rows) header rows ↔ ∀ row ∈ header :: rows, Unbroken row := by
  have hcells : ∀ row ∈ rows.map (·.map String.toList),
      row.length = (header.map String.toList).length := by
    rw [List.forall_mem_map]
    simpa using h
  have hunbroken := lineFeed_notMem_lines_iff hcells
  rw [← List.map_cons, List.forall_mem_map] at hunbroken
  simp only [← List.flatMap_def] at hunbroken
  refine Iff.trans ?_ hunbroken
  constructor
  · intro hreads
    have hcount := hreads.count_lineFeed
    rw [toList_table] at hcount
    -- The lines are as many as the line feeds, so no line has one inside.
    rw [← count_unlines_eq_length_iff, hcount]
    simp [lines]
  · intro hfeed
    refine ⟨_, _, _, toList_table header rows, hfeed, ?_, ?_⟩
    · change List.Forall₂ _ (List.map (line _) ((header :: rows).map (·.map String.toList))) _
      rw [List.forall₂_map_left_iff, List.forall₂_same]
      exact fun row hrow => shows_row hcells hrow
    · have hrule := shows_rule hcells
      rwa [List.length_map] at hrule

/-- The header cells of a list: the names of its columns, the tag and the title first. -/
def listHeader (columns : List String) : List String := ("tag" :: "title" :: columns).map capital

/-- The cells of an item in a list: its tag, its title if it has one, and its attributes. -/
def listRow (columns : List String) (item : Item) : List String :=
  ("tag" :: "title" :: columns).map (cell item)

/-- The header cells of a matrix: the two relationship names, and then its secondaries. -/
def pageHeader (m : Matrix) : List String :=
  (capital m.relationship ++ " \\ " ++ m.opposite) :: m.secondaries

/-- The cells of a primary in a matrix: its tag, and a mark for each related secondary. -/
def pageRow (m : Matrix) (primary : String) : List String :=
  primary :: (m.row primary).map fun related => if related then "x" else ""

theorem ofList_eq {items : List Item} (h : items ≠ []) (columns : List String) :
    ofList items columns = table (listHeader columns) (items.map (listRow columns)) := by
  rw [ofList, if_neg (by simpa using h)]
  rfl

theorem ofPages_eq {page : Matrix} (h : page.isEmpty = false) :
    ofPages [page] = table (pageHeader page) (page.primaries.map (pageRow page)) := by
  rw [ofPages, if_neg (by simp [h])]
  rfl

/-- The text of a list that is not empty, and of a matrix on one page that is not empty, is read
back by the widths of its columns exactly if no line feed breaks the header or a row, by standing
before a character that is not blank. -/
theorem text_tables_read_back (styles : Styles) :
    (∀ items columns, items ≠ [] → ∃ output,
      View.render styles "text" (.list items columns) = .ok output ∧
      (ReadsBack output (listHeader columns) (items.map (listRow columns)) ↔
        ∀ row ∈ listHeader columns :: items.map (listRow columns), Unbroken row)) ∧
    ∀ page : Matrix, page.isEmpty = false → ∃ output,
      View.render styles "text" (.matrix [page]) = .ok output ∧
      (ReadsBack output (pageHeader page) (page.primaries.map (pageRow page)) ↔
        ∀ row ∈ pageHeader page :: page.primaries.map (pageRow page), Unbroken row) := by
  constructor
  · intro items columns hitems
    refine ⟨_, congrArg Except.ok (ofList_eq hitems columns), readsBack_table_iff ?_⟩
    rw [List.forall_mem_map]
    intro item _
    rw [listRow, listHeader, List.length_map, List.length_map]
  · intro page hpage
    refine ⟨_, congrArg Except.ok (ofPages_eq hpage), readsBack_table_iff ?_⟩
    rw [List.forall_mem_map]
    intro primary _
    simp [pageRow, pageHeader, Matrix.row]

/-- A line feed in the last column is trimmed away, and cells can have blanks inside. -/
theorem text_tables_read_back_of_last_column :
    (let items := [Item.declared "A" (.ofList [("title", "First"), ("note", "x  y\n")]) ⟨"a.yaml", 1⟩,
        Item.declared "LONG" (.ofList [("owner", "me")]) ⟨"a.yaml", 2⟩]
      ∃ output, View.render Style.standard "text" (.list items ["owner", "note"]) = .ok output ∧
        ReadsBack output ["Tag", "Title", "Owner", "Note"]
          [["A", "First", "", "x  y\n"], ["LONG", "", "me", ""]]) ∧
    let page := Matrix.ofPairs "parents" "children" [⟨"A", "B"⟩, ⟨"A", "C"⟩, ⟨"D", "C"⟩]
    ∃ output, View.render Style.standard "text" (.matrix [page]) = .ok output ∧
      ReadsBack output ["Parents \\ children", "B", "C"] [["A", "x", "x"], ["D", "", "x"]] := by
  obtain ⟨hlist, hmatrix⟩ := text_tables_read_back Style.standard
  constructor
  · intro items
    have hheader : listHeader ["owner", "note"] = ["Tag", "Title", "Owner", "Note"] := by
      decide +kernel
    have hrows : items.map (listRow ["owner", "note"]) =
        [["A", "First", "", "x  y\n"], ["LONG", "", "me", ""]] := by
      decide +kernel
    obtain ⟨output, hrender, hreads⟩ := hlist items ["owner", "note"] (by simp [items])
    rw [hheader, hrows] at hreads
    exact ⟨output, hrender, hreads.mpr (by decide +kernel)⟩
  · intro page
    have hheader : pageHeader page = ["Parents \\ children", "B", "C"] := by decide +kernel
    have hrows : page.primaries.map (pageRow page) = [["A", "x", "x"], ["D", "", "x"]] := by
      decide +kernel
    obtain ⟨output, hrender, hreads⟩ := hmatrix page (by decide +kernel)
    rw [hheader, hrows] at hreads
    exact ⟨output, hrender, hreads.mpr (by decide +kernel)⟩

/-- A line feed at the end of a cell that is not the last one moves the cells behind it to a line
of their own, so the table of one item has four lines. -/
theorem row_broken_by_lineFeed :
    ∃ start, Session.ofRelationships [] 1 = .ok start ∧
      let items := (start.register "A" (.ofList [("note", "x\n"), ("owner", "me")])
        ⟨"a.yaml", 1⟩).1.registry.all
      let output := "Tag  Title  Note  Owner\n---  -----  ----  -----\nA           x\n    me\n"
      items ≠ [] ∧ View.render Style.standard "text" (.list items ["note", "owner"]) = .ok output ∧
        ¬ ReadsBack output (listHeader ["note", "owner"])
          (items.map (listRow ["note", "owner"])) := by
  refine ⟨_, rfl, ?_⟩
  intro items output
  refine ⟨by decide +kernel, ?_, fun hreads => ?_⟩
  · refine congrArg Except.ok ?_
    decide +kernel
  · have hcount := hreads.count_lineFeed
    rw [List.length_map] at hcount
    revert hcount
    decide +kernel

end Table

end View

end Traceability
