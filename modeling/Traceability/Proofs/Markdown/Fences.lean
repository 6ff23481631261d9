import Mathlib.Data.List.TakeWhile
import Traceability.Markdown.Block
import Traceability.Proofs.Text.Lines

/-!
Fenced blocks that stand one after the other, each with a fence of three backticks before and
behind its lines and a blank line after it. They are read back with what follows the first
fence, with their lines, and with the number of the line in which they start.
-/

namespace Traceability.Markdown

open Text (unlines)

def backtick : Char := Char.ofNat 0x60

/-- The fence that is written before and behind a block. -/
def fenceMark : List Char := [backtick, backtick, backtick]

/-- Whether a line ends a block that was started by a fence without an indent. -/
def closesBlock (line : List Char) : Bool :=
  let (indent, inner) := (Line.ofText line).skipUpTo 4
  indent < 4 && closesFence backtick fenceMark.length inner.rest

/-- What can stand on a line, by the line breaks of Markdown. -/
def OneLine (s : List Char) : Prop := '\n' ∉ s ∧ '\r' ∉ s

instance (s : List Char) : Decidable (OneLine s) := inferInstanceAs (Decidable (_ ∧ _))

/-- What can stand behind a fence. Blanks around it would not be kept. -/
structure IsInfo (info : List Char) : Prop where
  oneLine : OneLine info
  backtick_notMem : backtick ∉ info
  head : ∀ c ∈ info.head?, isAsciiBlank c = false
  last : ∀ c ∈ info.getLast?, isAsciiBlank c = false

/-- A block that can be written between two fences. -/
structure Fence.Writable (f : Fence) : Prop where
  info : IsInfo f.info
  lines : ∀ line ∈ f.lines, OneLine line ∧ closesBlock line = false

def Fence.written (f : Fence) : List (List Char) :=
  (fenceMark ++ f.info) :: f.lines ++ [fenceMark, []]

/-- Blocks with the numbers of the lines in which they start, from a given line on. -/
def numbered (number : Nat) : List Fence → List Fence
  | [] => []
  | f :: fs => { f with number } :: numbered (number + f.written.length) fs

theorem Fence.length_written (f : Fence) : f.written.length = f.lines.length + 3 := by
  simp [Fence.written]

section Line

theorem skipColumns_of_head {s : List Char} (h : ∀ c ∈ s.head?, c ≠ ' ' ∧ c ≠ '\t')
    (n column : Nat) : Line.skipColumns n column s = (n, ⟨s, column, 0⟩) := by
  cases n with
  | zero => rw [Line.skipColumns]
  | succ n =>
    cases s with
    | nil => rw [Line.skipColumns] <;> simp
    | cons c s =>
      obtain ⟨hspace, htab⟩ := h c rfl
      rw [Line.skipColumns]
      · intro rest heq
        exact hspace (List.cons.inj heq).1
      · intro rest heq
        exact htab (List.cons.inj heq).1

theorem skipUpTo_of_head {s : List Char} (h : ∀ c ∈ s.head?, c ≠ ' ' ∧ c ≠ '\t') (n : Nat) :
    (Line.ofText s).skipUpTo n = (0, Line.ofText s) := by
  unfold Line.skipUpTo
  split
  · rename_i hzero
    have hn : n = 0 := Nat.le_zero.mp hzero
    subst hn
    rfl
  · simp only [Line.ofText, skipColumns_of_head h]
    simp

theorem mem_dropWhile {p : Char → Bool} {s : List Char} {c : Char} (hmem : c ∈ s)
    (hc : p c = false) : c ∈ s.dropWhile p := by
  rw [← List.takeWhile_append_dropWhile (p := p) (l := s), List.mem_append] at hmem
  rcases hmem with hmem | hmem
  · rw [List.mem_takeWhile_imp hmem] at hc
    contradiction
  · exact hmem

/-- Only backticks and blanks stand on a line that closes a block. -/
theorem closesBlock_of_mem {line : List Char} (hline : OneLine line)
    (hhead : ∀ c ∈ line.head?, c ≠ ' ' ∧ c ≠ '\t') {c : Char} (hmem : c ∈ line)
    (hmark : c ≠ backtick) (hblank : c ≠ ' ') : closesBlock line = false := by
  have hdrop : line.drop (line.takeWhile (· == backtick)).length =
      line.dropWhile (· == backtick) := by
    have hsplit := congrArg (List.drop (line.takeWhile (· == backtick)).length)
      (List.takeWhile_append_dropWhile (p := (· == backtick)) (l := line))
    rwa [List.drop_left, eq_comm] at hsplit
  have hrest : c ∈ (line.dropWhile (· == backtick)).dropWhile (· == ' ') :=
    mem_dropWhile (mem_dropWhile hmem (by simpa using hmark)) (by simpa using hblank)
  have hend : atLineEnd ((line.dropWhile (· == backtick)).dropWhile (· == ' ')) = false := by
    obtain ⟨first, more, hcons⟩ := List.exists_cons_of_ne_nil (List.ne_nil_of_mem hrest)
    have hfirst : first ∈ line := by
      apply (List.dropWhile_suffix (· == backtick)).subset
      apply (List.dropWhile_suffix (· == ' ')).subset
      rw [hcons]
      exact List.mem_cons_self
    rw [hcons, atLineEnd, Bool.or_eq_false_iff, beq_eq_false_iff_ne, beq_eq_false_iff_ne]
    exact ⟨fun heq => hline.1 (heq ▸ hfirst), fun heq => hline.2 (heq ▸ hfirst)⟩
  unfold closesBlock
  rw [skipUpTo_of_head hhead]
  simp [closesFence, Line.ofText, hdrop, hend]

end Line

namespace Blocks

/-- The state between two blocks. -/
def between (lastBlank : Bool) (found : List Fence) : Blocks :=
  ⟨[], .none, false, lastBlank, found⟩

/-- The state inside a block whose fence is still open. -/
def inside (f : Fence) (found : List Fence) : Blocks :=
  ⟨[], .fence ⟨f, 0, backtick, fenceMark.length⟩, false, false, found⟩

variable {f : Fence} {found : List Fence} {number : Nat} {rest : List (List Char)}

theorem withoutBlankEnd_of_last {s : List Char} (h : ∀ c ∈ s.getLast?, isAsciiBlank c = false) :
    withoutBlankEnd s = s := by
  unfold withoutBlankEnd
  rw [← List.head?_reverse] at h
  cases hreverse : s.reverse with
  | nil => simpa using hreverse
  | cons c t =>
    rw [hreverse] at h
    rw [List.dropWhile_cons_of_neg (by simp [h c rfl]), ← hreverse, List.reverse_reverse]

theorem isInner_of_isAsciiBlank {c : Char} (h : isAsciiBlank c = false) : isInner c = false := by
  simp only [isAsciiBlank, isInner, Bool.or_eq_false_iff, Bool.and_eq_false_iff,
    decide_eq_false_iff_not, beq_eq_false_iff_ne] at h ⊢
  refine ⟨⟨⟨h.1, ?_⟩, by omega⟩, by omega⟩
  rintro rfl
  exact absurd h.2 (by decide)

theorem dropWhile_isInner_of_head {s : List Char} (h : ∀ c ∈ s.head?, isAsciiBlank c = false) :
    s.dropWhile isInner = s := by
  cases s with
  | nil => rfl
  | cons c s =>
    exact List.dropWhile_cons_of_neg (by simp [isInner_of_isAsciiBlank (h c rfl)])

theorem fence?_opening {info : List Char} (h : IsInfo info) :
    fence? (fenceMark ++ info) = some (backtick, fenceMark.length) := by
  have hmark : (info.takeWhile (· == backtick)) = [] := by
    cases info with
    | nil => rfl
    | cons c info =>
      have hne : c ≠ backtick := by
        rintro rfl
        exact h.backtick_notMem List.mem_cons_self
      exact List.takeWhile_cons_of_neg (by simpa using hne)
  have hinfo : (info.takeWhile (· != '\n')).contains backtick = false := by
    rw [List.contains_eq_mem, decide_eq_false_iff_not]
    intro hmem
    exact h.backtick_notMem ((List.takeWhile_prefix _).subset hmem)
  have hlength : 1 + ((backtick :: backtick :: info).takeWhile (· == backtick)).length =
      fenceMark.length := by
    rw [List.takeWhile_cons_of_pos rfl, List.takeWhile_cons_of_pos rfl, hmark]
    rfl
  change fence? (backtick :: backtick :: backtick :: info) = _
  unfold fence?
  simp only [hlength]
  have hdrop : (backtick :: backtick :: backtick :: info).drop fenceMark.length = info := rfl
  rw [hdrop, hinfo]
  rfl

theorem skipUpTo_opening (info : List Char) :
    (Line.ofText (fenceMark ++ info)).skipUpTo 4 = (0, Line.ofText (fenceMark ++ info)) := by
  apply skipUpTo_of_head
  intro c hc
  cases hc
  decide

/-- A fence starts no container. -/
theorem enterAll_opening (fuel : Nat) (b : Blocks) (info : List Char) :
    enterAll (fuel + 1) b (Line.ofText (fenceMark ++ info)) =
      (b, Line.ofText (fenceMark ++ info), false) := by
  have hitem : (Line.ofText (fenceMark ++ info)).item? 0 = none := rfl
  have hquote : (Line.ofText (fenceMark ++ info)).quote? = none := rfl
  unfold enterAll
  simp only [skipUpTo_opening, hitem, hquote]
  rfl

/-- What stands behind the first fence is the info of the block. -/
theorem read_opening {info : List Char} (h : IsInfo info) (lastBlank : Bool) :
    (between lastBlank found).read number (fenceMark ++ info) rest =
      .whole (inside ⟨number, info, []⟩ found) := by
  have hstart : (between lastBlank found).read number (fenceMark ++ info) rest =
      (between lastBlank found).start number (fenceMark ++ info) rest := rfl
  have hblank : isBlank (Line.ofText (fenceMark ++ info)).rest = false := rfl
  have hhtml : html? (Line.ofText (fenceMark ++ info)).rest = none := rfl
  have hrule : isRule (Line.ofText (fenceMark ++ info)).rest = false := rfl
  have hheading : isHeading (Line.ofText (fenceMark ++ info)).rest = false := rfl
  have hfence : fence? (Line.ofText (fenceMark ++ info)).rest =
      some (backtick, fenceMark.length) := fence?_opening h
  have hinfo : withoutBlankEnd (((Line.ofText (fenceMark ++ info)).rest.drop
      fenceMark.length).dropWhile isInner) = info := by
    have hdrop : (Line.ofText (fenceMark ++ info)).rest.drop fenceMark.length = info := rfl
    rw [hdrop, dropWhile_isInner_of_head h.head, withoutBlankEnd_of_last h.last]
  rw [hstart, start]
  simp only [between, continued, List.take_nil, enterAll_opening, hblank, skipUpTo_opening, hhtml,
    hrule, hheading, hfence, hinfo]
  rfl

/-- A line that does not close a block belongs to it as it stands. -/
theorem read_line {line : List Char} (hline : OneLine line) (hclose : closesBlock line = false) :
    (inside f found).read number line rest =
      .whole (inside { f with lines := f.lines ++ [line] } found) := by
  have hbody : body line = line := by
    unfold body
    split
    · rename_i c more hreverse
      have hmem : '\r' ∈ line := by
        rw [← List.mem_reverse, hreverse]
        simp
      exact absurd hmem hline.2
    · rfl
  have hskip : ((Line.ofText line).skip 0).2 = Line.ofText line := rfl
  have hopen : (decide (((Line.ofText line).skipUpTo 4).1 < 4) &&
      closesFence backtick fenceMark.length ((Line.ofText line).skipUpTo 4).2.rest) = false := hclose
  unfold read
  simp only [inside, continued, hskip, Nat.sub_zero, hopen]
  have hnext : (Line.ofText line).rest = line := rfl
  rw [hnext, hbody]
  rfl

theorem read_closing :
    (inside f found).read number fenceMark rest = .toReturn (between false (found ++ [f])) := by
  have hskip : ((Line.ofText fenceMark).skip 0).2 = Line.ofText fenceMark := rfl
  have hindent : (Line.ofText fenceMark).skipUpTo 4 = (0, Line.ofText fenceMark) :=
    skipUpTo_opening []
  unfold read
  simp only [inside, continued, hskip, Nat.sub_zero, hindent]
  rfl

theorem read_blank (lastBlank : Bool) :
    (between lastBlank found).read number [] rest = .toReturn (between true found) := by
  have hindent : (Line.ofText []).skipUpTo 4 = (0, Line.ofText []) :=
    skipUpTo_of_head (by simp) 4
  have hstart : (between lastBlank found).read number [] rest =
      (between lastBlank found).start number [] rest := rfl
  have henter (b : Blocks) : enterAll 1 b (Line.ofText []) = (b, Line.ofText [], false) := by
    unfold enterAll
    simp only [hindent]
    rfl
  rw [hstart, start]
  simp only [between, continued, List.take_nil, List.length_nil, Nat.zero_add, henter]
  rfl

/-- The lines of a block are read one by one. -/
theorem run_lines {body : List (List Char)}
    (h : ∀ line ∈ body, OneLine line ∧ closesBlock line = false) (fuel : Nat) :
    run (body.length + fuel) (inside f found) number (body ++ rest) =
      run fuel (inside { f with lines := f.lines ++ body } found) (number + body.length) rest := by
  induction body generalizing f number with
  | nil => simp
  | cons line body ih =>
    obtain ⟨⟨hline, hclose⟩, hbody⟩ := List.forall_mem_cons.mp h
    have hfuel : (line :: body).length + fuel = body.length + fuel + 1 := by
      rw [List.length_cons]
      omega
    have hnumber : number + 1 + body.length = number + (line :: body).length := by
      rw [List.length_cons]
      omega
    rw [hfuel, List.cons_append, run, read_line hline hclose]
    simp only [ih hbody, List.append_assoc, List.singleton_append, hnumber]

/-- A block is complete behind the blank line after it. -/
theorem run_fence (hf : f.Writable) (lastBlank : Bool) (fuel : Nat) :
    run (f.written.length + fuel) (between lastBlank found) number (f.written ++ rest) =
      run fuel (between true (found ++ [{ f with number }])) (number + f.written.length) rest := by
  have hfuel : f.written.length + fuel = f.lines.length + (fuel + 1 + 1) + 1 := by
    rw [f.length_written]
    omega
  have hlines : f.written ++ rest =
      (fenceMark ++ f.info) :: (f.lines ++ fenceMark :: [] :: rest) := by
    simp [Fence.written]
  have hnumber : number + 1 + f.lines.length + 1 + 1 = number + f.written.length := by
    rw [f.length_written]
    omega
  have hmark : behindReturn? fenceMark = none := rfl
  have hempty : behindReturn? [] = none := rfl
  rw [hfuel, hlines, run, read_opening hf.info]
  simp only
  rw [run_lines hf.lines, run, read_closing]
  simp only [hmark]
  rw [run, read_blank]
  simp only [hempty, hnumber, List.nil_append]

theorem run_fences {fs : List Fence} (h : ∀ f ∈ fs, f.Writable) (lastBlank : Bool) (fuel : Nat) :
    run ((fs.flatMap Fence.written).length + fuel) (between lastBlank found) number
      (fs.flatMap Fence.written) = found ++ numbered number fs := by
  induction fs generalizing found number lastBlank with
  | nil =>
    rw [List.flatMap_nil, numbered, List.append_nil]
    cases fuel <;> rfl
  | cons f fs ih =>
    obtain ⟨hf, hfs⟩ := List.forall_mem_cons.mp h
    rw [List.flatMap_cons, List.length_append, Nat.add_assoc, run_fence hf, ih hfs, numbered,
      List.append_assoc, List.singleton_append]

end Blocks

theorem lines_unlines {written : List (List Char)} (h : ∀ line ∈ written, '\n' ∉ line) :
    lines (unlines written) = written := by
  have hsplit : Text.split (· == '\n') (unlines written) = written ++ [[]] := by
    induction written with
    | nil => rfl
    | cons line written ih =>
      obtain ⟨hline, hwritten⟩ := List.forall_mem_cons.mp h
      have hpiece : ∀ c ∈ line, (c == '\n') = false := by
        intro c hc
        rw [beq_eq_false_iff_ne]
        rintro rfl
        exact hline hc
      rw [Text.unlines_cons, Text.split_append hpiece rfl, ih hwritten, List.cons_append]
  unfold lines
  simp only [hsplit, List.getLast?_concat, List.dropLast_concat]
  rfl

theorem length_le_length_unlines (written : List (List Char)) :
    written.length ≤ (unlines written).length := by
  induction written with
  | nil => exact Nat.le_refl 0
  | cons line written ih =>
    rw [Text.unlines_cons, List.length_cons, List.length_append, List.length_cons]
    omega

theorem Fence.Writable.oneLine {f : Fence} (h : f.Writable) : ∀ line ∈ f.written, OneLine line := by
  intro line hline
  have hmark : OneLine fenceMark := by
    unfold OneLine
    decide
  simp only [Fence.written, List.cons_append, List.mem_cons, List.mem_append, List.not_mem_nil,
    or_false] at hline
  rcases hline with rfl | hline | rfl | rfl
  · exact ⟨List.not_mem_append hmark.1 h.info.oneLine.1,
      List.not_mem_append hmark.2 h.info.oneLine.2⟩
  · exact (h.lines line hline).1
  · exact hmark
  · exact ⟨List.not_mem_nil, List.not_mem_nil⟩

/-- Blocks are read back as they were written, with the lines in which they start. -/
theorem fences_written {fs : List Fence} (h : ∀ f ∈ fs, f.Writable) :
    fences (unlines (fs.flatMap Fence.written)) = numbered 1 fs := by
  have hlines : ∀ line ∈ fs.flatMap Fence.written, '\n' ∉ line := by
    intro line hline
    obtain ⟨f, hf, hline⟩ := List.mem_flatMap.mp hline
    exact ((h f hf).oneLine line hline).1
  have hlength := length_le_length_unlines (fs.flatMap Fence.written)
  have hfuel : (unlines (fs.flatMap Fence.written)).length + 2 =
      (fs.flatMap Fence.written).length +
        ((unlines (fs.flatMap Fence.written)).length + 2 - (fs.flatMap Fence.written).length) := by
    omega
  unfold fences
  rw [lines_unlines hlines, hfuel]
  exact Blocks.run_fences h false _

end Traceability.Markdown
