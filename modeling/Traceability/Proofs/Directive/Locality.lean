import Traceability.Proofs.Directive.WellFormed

/-!
Directives on both sides of a blank line have nothing to do with each other. Two texts that are
joined with a blank line between them give the declarations of the first and then those of the
second, further down, and the first text that cannot be read decides on the fault.
-/

namespace Traceability

/-- The place so many lines further down. -/
def Origin.moved (n : Nat) (o : Origin) : Origin := { o with line := o.line + n }

namespace Document

def Declaration.moved (n : Nat) (d : Declaration) : Declaration := { d with line := d.line + n }

def Fault.moved (n : Nat) : Fault → Fault
  | directiveTag origin argument => directiveTag (origin.moved n) argument
  | blockTag origin info => blockTag (origin.moved n) info
  | blockLine origin tag text => blockLine (origin.moved n) tag text
  | listingValue origin name tag => listingValue (origin.moved n) name tag
  | noListing document => noListing document
  | unknownFormat extension => unknownFormat extension

namespace Directive

open Text

section LineEnds

variable {b : Char}

theorem afterPrefix?_append_blank {start : List Char} (hstart : b ∉ start) (line : List Char) :
    afterPrefix? start (line ++ [b]) = (afterPrefix? start line).map (· ++ [b]) := by
  have hstarts : start <+: line ++ [b] ↔ start <+: line := by
    rw [List.prefix_concat_iff, or_iff_right]
    rintro rfl
    simp at hstart
  unfold afterPrefix?
  by_cases h : start <+: line
  · rw [if_pos (List.isPrefixOf_iff_prefix.mpr (hstarts.mpr h)),
      if_pos (List.isPrefixOf_iff_prefix.mpr h), List.drop_append_of_le_length h.length_le]
    rfl
  · rw [if_neg (mt List.isPrefixOf_iff_prefix.mp (mt hstarts.mp h)),
      if_neg (mt List.isPrefixOf_iff_prefix.mp h)]
    rfl

theorem argument?_of_blank {line : List Char} (h : line.all isBlank = true) :
    argument? line = none := by
  unfold argument?
  rw [trimStart_eq_nil_iff.mpr h]
  rfl

theorem argument?_append_blank (hb : isBlank b = true) (line : List Char) :
    argument? (line ++ [b]) = (argument? line).map (· ++ [b]) := by
  have hdots : b ∉ ['.', '.'] := by
    intro hmem
    rw [List.mem_cons, List.mem_singleton, or_self] at hmem
    subst hmem
    contradiction
  have hmarker : b ∉ "traceable::".toList := by
    intro hmem
    have hnone : "traceable::".toList.any isBlank = false := by decide
    exact List.any_eq_false.mp hnone b hmem hb
  cases hline : line.all isBlank with
  | true =>
    rw [argument?_of_blank hline, argument?_of_blank (by simp [hline, hb])]
    rfl
  | false =>
    unfold argument?
    rw [trimStart_append hline, afterPrefix?_append_blank hdots]
    cases afterPrefix? ['.', '.'] (trimStart line) with
    | none => rfl
    | some rest =>
      simp only [Option.map_some]
      cases hrest : rest.all isBlank with
      | true =>
        have hnone (s : List Char) (hs : s.all isBlank = true) :
            (if (s.takeWhile isBlank).isEmpty then none
              else afterPrefix? "traceable::".toList (trimStart s)) = none := by
          rw [trimStart_eq_nil_iff.mpr hs]
          split <;> rfl
        rw [hnone rest hrest, hnone (rest ++ [b]) (by simp [hrest, hb])]
        rfl
      | false =>
        rw [takeWhile_isBlank_append hrest, trimStart_append hrest,
          afterPrefix?_append_blank hmarker]
        split <;> rfl

theorem option?_of_blank {line : List Char} (h : line.all isBlank = true) :
    option? line = none := by
  unfold option?
  rw [trimStart_eq_nil_iff.mpr h]
  split <;> rfl

/-- A blank behind a text does not change whether the text is empty or starts with a blank. -/
theorem startsBlank_append_blank (hb : isBlank b = true) (value : List Char) :
    ((value ++ [b]).isEmpty || (value ++ [b]).head?.any isBlank) =
      (value.isEmpty || value.head?.any isBlank) := by
  cases value with
  | nil => simp [hb]
  | cons z value => rfl

theorem option?_append_blank (hb : isBlank b = true) (line : List Char) :
    option? (line ++ [b]) = option? line := by
  have hcolon : b ≠ ':' := by
    rintro rfl
    contradiction
  cases hline : line.all isBlank with
  | true => rw [option?_of_blank hline, option?_of_blank (by simp [hline, hb])]
  | false =>
    unfold option?
    rw [takeWhile_isBlank_append hline, trimStart_append hline]
    congr 1
    rcases trimStart line with _ | ⟨x, rest⟩
    · simp
    · by_cases hx : x = ':'
      · subst hx
        cases rest with
        | nil => simp [hb]
        | cons c rest =>
          cases hrest : rest.dropWhile (· != ':') with
          | nil => simp [List.dropWhile_append, hrest, hcolon]
          | cons y value =>
            have hne : rest.dropWhile (· != ':') ≠ [] := by simp [hrest]
            have hdrop := dropWhile_append_of_ne_nil hne [b]
            have htake := takeWhile_append_of_ne_nil hne [b]
            have htrim : trim (value ++ [b]) = trim value :=
              trim_append_blank value (List.forall_mem_singleton.mpr hb)
            simp only [List.cons_append, hrest, hdrop, htake, startsBlank_append_blank hb, htrim]
      · simp [hx]

theorem indentOf_append {line : List Char} (h : line.all isBlank = false) (b : Char) :
    indentOf (line ++ [b]) = indentOf line := by
  rw [indentOf, takeWhile_isBlank_append h, indentOf]

theorem absorb_append_blank (hb : isBlank b = true) (o : Opened) (line : List Char) :
    o.absorb (line ++ [b]) = o.absorb line := by
  have htrim : trim (line ++ [b]) = trim line :=
    trim_append_blank line (List.forall_mem_singleton.mpr hb)
  have hall : (line ++ [b]).all isBlank = line.all isBlank := by simp [hb]
  unfold Opened.absorb
  rw [hall]
  cases hline : line.all isBlank with
  | true => rfl
  | false => rw [indentOf_append hline, option?_append_blank hb, htrim]

theorem start_append_blank (hb : isBlank b = true) (document : String) (number : Nat)
    (line : List Char) : start document number (line ++ [b]) = start document number line := by
  unfold start
  rw [argument?_append_blank hb]
  cases hargument : argument? line with
  | none => rfl
  | some argument =>
    have htrim : trim (argument ++ [b]) = trim argument :=
      trim_append_blank argument (List.forall_mem_singleton.mpr hb)
    have hline : line.all isBlank = false := by
      rw [Bool.eq_false_iff]
      intro hblank
      rw [argument?_of_blank hblank] at hargument
      contradiction
    simp only [Option.map_some, htrim, indentOf_append hline]

/-- A carriage return at its end tells a line from no other one. -/
theorem absorb_dropReturn (o : Opened) (line : List Char) :
    o.absorb (dropReturn line) = o.absorb line := by
  rcases dropReturn_cases line with h | h
  · rw [h]
  · conv => rhs; rw [h]
    exact (absorb_append_blank rfl o _).symm

theorem start_dropReturn (document : String) (number : Nat) (line : List Char) :
    start document number (dropReturn line) = start document number line := by
  rcases dropReturn_cases line with h | h
  · rw [h]
  · conv => rhs; rw [h]
    exact (start_append_blank rfl document number _).symm

end LineEnds

section Joined

variable (document : String)

/-- A blank line ends the open directive, and reading starts afresh behind it. -/
theorem scan_append_blankLine (number : Nat) (opened : Option Opened)
    (before behind : List (List Char)) :
    scan document number opened (before ++ [] :: behind) =
      match scan document number opened before with
      | .error fault => .error fault
      | .ok ds => (scan document (number + before.length + 1) none behind).map (ds ++ ·) := by
  induction before generalizing number opened with
  | nil =>
    cases opened with
    | none => rfl
    | some o => rfl
  | cons line before ih =>
    have hnumber : number + (line :: before).length + 1 = number + 1 + before.length + 1 := by
      rw [List.length_cons]
      omega
    rw [List.cons_append, scan, scan, hnumber]
    cases opened.bind fun o => o.absorb line with
    | some o => exact ih (number + 1) (some o)
    | none =>
      cases start document number line with
      | error fault => rfl
      | ok next =>
        simp only [ih]
        cases scan document (number + 1) next before with
        | error fault => rfl
        | ok ds =>
          simp only [Except.map]
          cases scan document (number + 1 + before.length + 1) none behind with
          | error fault => rfl
          | ok further => exact congrArg Except.ok (List.append_assoc ..).symm

/-- Reading can go from line feed to line feed: a carriage return in front of one and the end
of the text behind the last one are of no account. -/
theorem scan_terminated (number : Nat) (opened : Option Opened) (pieces : List (List Char)) :
    scan document number opened (terminated pieces) = scan document number opened pieces := by
  fun_induction terminated pieces generalizing number opened with
  | case1 => rfl
  | case2 last hlast =>
    obtain rfl := List.isEmpty_iff.mp hlast
    have hjoined := scan_append_blankLine document number opened [] []
    exact (congrArg Except.ok (List.append_nil _).symm).trans hjoined.symm
  | case3 last hlast => rfl
  | case4 line next rest ih =>
    have habsorb : (opened.bind fun o => o.absorb (dropReturn line)) =
        opened.bind fun o => o.absorb line := by simp only [absorb_dropReturn]
    rw [scan, scan, habsorb, start_dropReturn]
    simp only [ih]

theorem read_eq (content : List Char) :
    read document content = scan document 1 none (split (· == '\n') content) :=
  scan_terminated document 1 none _

end Joined

section Moved

variable (document : String)

/-- The directive as it is read so many lines further down. -/
def Opened.moved (n : Nat) (o : Opened) : Opened :=
  { o with declaration := o.declaration.moved n }

theorem absorb_moved (n : Nat) (o : Opened) (line : List Char) :
    (o.moved n).absorb line = (o.absorb line).map (Opened.moved n) := by
  obtain ⟨d, indent, last⟩ := o
  unfold Opened.absorb Opened.moved
  simp only
  split
  · rfl
  · cases option? line with
    | some found => rfl
    | none =>
      cases last with
      | none => rfl
      | some last =>
        simp only
        split <;> rfl

theorem start_moved (n number : Nat) (line : List Char) :
    start document (number + n) line =
      ((start document number line).map (Option.map (Opened.moved n))).mapError (Fault.moved n) := by
  unfold start
  cases argument? line with
  | none => rfl
  | some argument =>
    simp only
    split <;> rfl

theorem scan_moved (n number : Nat) (opened : Option Opened) (ls : List (List Char)) :
    scan document (number + n) (opened.map (Opened.moved n)) ls =
      ((scan document number opened ls).map (List.map (Declaration.moved n))).mapError
        (Fault.moved n) := by
  have hfinished (opened : Option Opened) : Opened.finished (opened.map (Opened.moved n)) =
      (Opened.finished opened).map (Declaration.moved n) := by
    cases opened <;> rfl
  induction ls generalizing number opened with
  | nil =>
    rw [scan, hfinished]
    rfl
  | cons line ls ih =>
    have habsorb : ((opened.map (Opened.moved n)).bind fun o => o.absorb line) =
        (opened.bind fun o => o.absorb line).map (Opened.moved n) := by
      cases opened with
      | none => rfl
      | some o => exact absorb_moved n o line
    rw [scan, scan, habsorb, hfinished, start_moved, Nat.add_right_comm]
    cases opened.bind fun o => o.absorb line with
    | some o => exact ih (number + 1) (some o)
    | none =>
      cases start document number line with
      | error fault => rfl
      | ok next =>
        have hnext := ih (number + 1) next
        simp only [Option.map_none, Except.map, Except.mapError]
        rw [hnext]
        cases scan document (number + 1) next ls with
        | error fault => rfl
        | ok ds => exact congrArg Except.ok List.map_append.symm

end Moved

/-- Two texts with a blank line between them are read one after the other. A declaration or a
fault of the second is as many lines further down as the first text and the blank line take, and
the fault of the first text is the one that is found. -/
theorem read_append_blankLine (document : String) (a b : List Char) :
    read document (a ++ '\n' :: '\n' :: b) =
      match read document a, read document b with
      | .error fault, _ => .error fault
      | .ok _, .error fault => .error (fault.moved (a.count '\n' + 2))
      | .ok before, .ok behind =>
          .ok (before ++ behind.map (Declaration.moved (a.count '\n' + 2))) := by
  have hpieces : split (· == '\n') (a ++ '\n' :: '\n' :: b) =
      split (· == '\n') a ++ [] :: split (· == '\n') b :=
    split_append_separator rfl a ('\n' :: b)
  have hnumber : 1 + (split (· == '\n') a).length + 1 = 1 + (a.count '\n' + 2) := by
    rw [length_split, List.count_eq_countP]
    omega
  have hmoved := scan_moved document (a.count '\n' + 2) 1 none (split (· == '\n') b)
  rw [Option.map_none] at hmoved
  rw [read_eq, hpieces, scan_append_blankLine, hnumber, hmoved, ← read_eq, ← read_eq]
  cases read document a with
  | error fault => rfl
  | ok before =>
    cases read document b with
    | error fault => rfl
    | ok behind => rfl

/-- Behind the blank line, `off` does not go on with the note. -/
example : read "a.rst" (".. traceable:: X\n    :note: on\r".toList ++ '\n' :: '\n' ::
      "    off\n.. traceable:: Y".toList) =
    .ok [⟨"X", .ofList [("note", "on")], 1⟩, ⟨"Y", ∅, 5⟩] := by
  decide +kernel

end Directive

end Document

end Traceability
