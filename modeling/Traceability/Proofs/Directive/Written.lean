import Traceability.Proofs.Directive.WellFormed

/-!
Directives as they are written: the tag behind the marker, one line for each attribute in the
order of their names, and a blank line. Reading gives well-formed declarations back, each with
the line of its marker, whatever their values look like.
-/

namespace Traceability.Document.Directive

open Text

def openingLine (tag : String) : List Char := ".. traceable:: ".toList ++ tag.toList

def attributeLine (name value : String) : List Char :=
  "    :".toList ++ name.toList ++ ": ".toList ++ value.toList

def directiveLines (d : Declaration) : List (List Char) :=
  openingLine d.tag :: d.attributes.entries.map (fun (name, value) => attributeLine name value) ++
    [[]]

/-- Four blanks and a colon come first, and a colon and a blank behind the name. -/
theorem attributeLine_eq (name value : String) :
    attributeLine name value = ' ' :: ' ' :: ' ' :: ' ' :: ':' ::
      (name.toList ++ ':' :: ' ' :: value.toList) := by
  unfold attributeLine
  rw [List.append_assoc]
  rfl

def writtenLines (ds : List Declaration) : List (List Char) :=
  ds.flatMap directiveLines

def written (ds : List Declaration) : List Char := unlines (writtenLines ds)

/-- The declarations with the lines that they are written in, from a given line on. -/
def placed (number : Nat) : List Declaration → List Declaration
  | [] => []
  | d :: ds => { d with line := number } :: placed (number + d.attributes.size + 2) ds

section Lines

theorem IsTag.lineFeed_notMem {tag : String} (h : IsTag tag) : '\n' ∉ tag.toList := by
  intro hmem
  have hblank := h.isBlank_of_mem _ hmem
  contradiction

theorem IsTag.toList_ne_nil {tag : String} (h : IsTag tag) : tag.toList ≠ [] := by
  rw [Ne, String.toList_eq_nil_iff]
  exact h.ne_empty

theorem IsName.exists_cons {name : String} (h : IsName name) :
    ∃ c more, name.toList = c :: more ∧ c ≠ ':' ∧ isBlank c = false ∧ ':' ∉ more := by
  cases hname : name.toList with
  | nil => exact absurd (String.toList_eq_nil_iff.mp hname) h.ne_empty
  | cons c more =>
    have hcolon := h.colon_notMem
    rw [hname, List.mem_cons, not_or] at hcolon
    refine ⟨c, more, rfl, Ne.symm hcolon.1, ?_, hcolon.2⟩
    apply head?_trim name.toList
    rw [h.trimmed, hname]
    rfl

theorem getLast?_ne_return {front s : List Char} (hs : s ≠ [])
    (h : ∀ c ∈ s.getLast?, isBlank c = false) : (front ++ s).getLast? ≠ some '\r' := by
  rw [List.getLast?_append_of_ne_nil _ hs]
  intro hlast
  have hblank := h _ hlast
  contradiction

theorem openingLine_isLine {tag : String} (h : IsTag tag) :
    '\n' ∉ openingLine tag ∧ (openingLine tag).getLast? ≠ some '\r' := by
  unfold openingLine
  refine ⟨?_, getLast?_ne_return h.toList_ne_nil fun c hc => ?_⟩
  · exact List.not_mem_append (by decide) h.lineFeed_notMem
  · exact h.isBlank_of_mem c (List.mem_of_getLast? hc)

theorem attributeLine_isLine {name value : String} (hname : IsName name) (hvalue : IsValue value) :
    '\n' ∉ attributeLine name value ∧ (attributeLine name value).getLast? ≠ some '\r' := by
  constructor
  · unfold attributeLine
    have hstart : '\n' ∉ "    :".toList := by decide
    have hcolon : '\n' ∉ ": ".toList := by decide
    exact List.not_mem_append (List.not_mem_append
      (List.not_mem_append hstart hname.lineFeed_notMem) hcolon) hvalue.lineFeed_notMem
  · unfold attributeLine
    by_cases hempty : value.toList = []
    · rw [hempty, List.append_nil, List.getLast?_append_of_ne_nil _ (by decide)]
      decide
    · apply getLast?_ne_return hempty
      rw [← hvalue.trimmed]
      exact getLast?_trim _

theorem isLine_of_mem_writtenLines {ds : List Declaration} (h : ∀ d ∈ ds, WellFormed d) :
    ∀ line ∈ writtenLines ds, '\n' ∉ line ∧ line.getLast? ≠ some '\r' := by
  intro line hline
  obtain ⟨d, hd, hline⟩ := List.mem_flatMap.mp hline
  simp only [directiveLines, List.cons_append, List.mem_cons, List.mem_append,
    List.mem_map, List.not_mem_nil, or_false] at hline
  rcases hline with rfl | ⟨⟨name, value⟩, hentry, rfl⟩ | rfl
  · exact openingLine_isLine (h d hd).tag
  · obtain ⟨hname, hvalue⟩ := (h d hd).attributes name value (SortedMap.mem_entries.mp hentry)
    exact attributeLine_isLine hname hvalue
  · exact ⟨List.not_mem_nil, by simp⟩

end Lines

section Read

theorem start_openingLine (document : String) (number : Nat) {tag : String} (h : IsTag tag) :
    start document number (openingLine tag) = .ok (some ⟨⟨tag, ∅, number⟩, 0, none⟩) := by
  have hargument : argument? (openingLine tag) = some (' ' :: tag.toList) := rfl
  have hindent : indentOf (openingLine tag) = 0 := rfl
  have htrim : trim (' ' :: tag.toList) = tag.toList := by
    rw [trim_space_cons]
    exact trim_of_ends (fun c hc => h.isBlank_of_mem c (List.mem_of_head? hc))
      fun c hc => h.isBlank_of_mem c (List.mem_of_getLast? hc)
  have hword : (tag.toList.isEmpty || tag.toList.any isBlank) = false := by
    rw [Bool.or_eq_false_iff, List.isEmpty_eq_false_iff, List.any_eq_false]
    exact ⟨h.toList_ne_nil, fun c hc => by simp [h.isBlank_of_mem c hc]⟩
  unfold start
  rw [hargument]
  simp only [htrim, hword, hindent, Bool.false_eq_true, if_false, String.ofList_toList]

theorem option?_attributeLine {name value : String} (hname : IsName name) (hvalue : IsValue value) :
    option? (attributeLine name value) = some (name.toList, value.toList) := by
  obtain ⟨c, more, hcharacters, hcolon, hblank, hmore⟩ := hname.exists_cons
  have hline : attributeLine name value =
      ' ' :: ' ' :: ' ' :: ' ' :: ':' :: c :: (more ++ ':' :: ' ' :: value.toList) := by
    rw [attributeLine_eq, hcharacters, List.cons_append]
  have hcut : ∀ x ∈ more, (x != ':') = true := by
    intro x hx
    rw [bne_iff_ne]
    rintro rfl
    exact hmore hx
  have hstart : trimStart (attributeLine name value) =
      ':' :: c :: (more ++ ':' :: ' ' :: value.toList) := by
    rw [hline]
    rfl
  have htrim : trim (' ' :: value.toList) = value.toList := by
    rw [trim_space_cons, hvalue.trimmed]
  have hindented : ((attributeLine name value).takeWhile isBlank).isEmpty = false := by
    rw [hline]
    rfl
  unfold option?
  rw [hindented, hstart]
  have hdrop : (more ++ ':' :: ' ' :: value.toList).dropWhile (· != ':') =
      ':' :: ' ' :: value.toList := by
    rw [List.dropWhile_append_of_pos hcut]
    rfl
  have htake : (more ++ ':' :: ' ' :: value.toList).takeWhile (· != ':') = more := by
    rw [List.takeWhile_append_of_pos hcut]
    simp
  have hfirst : (c == ':' || isBlank c) = false := by simp [hcolon, hblank]
  simp only [Bool.false_eq_true, if_false, hfirst, hdrop, htake]
  rw [← hcharacters, hname.trimmed, htrim]
  rfl

theorem absorb_attributeLine {o : Opened} (ho : o.indent = 0) {name value : String}
    (hname : IsName name) (hvalue : IsValue value) :
    o.absorb (attributeLine name value) =
      some (o.carrying (o.declaration.attributes.insert name value) (some (name, 4))) := by
  have hindent : indentOf (attributeLine name value) = 4 := by
    rw [attributeLine_eq]
    rfl
  have hblank : (attributeLine name value).all isBlank = false := by
    rw [attributeLine_eq]
    rfl
  unfold Opened.absorb
  rw [if_neg (by simp [hblank, hindent, ho])]
  simp only [option?_attributeLine hname hvalue, hindent, String.ofList_toList]
  rfl

variable {document : String}

theorem scan_blank (o : Opened) (number : Nat) (rest : List (List Char)) :
    scan document number (some o) ([] :: rest) =
      (scan document (number + 1) none rest).map (o.declaration :: ·) := rfl

/-- Each of the lines below a marker gives its attribute. -/
theorem scan_attributeLines {entries : List (String × String)}
    (hentries : ∀ name value, (name, value) ∈ entries → IsName name ∧ IsValue value) {o : Opened}
    (ho : o.indent = 0) (number : Nat) (rest : List (List Char)) :
    scan document number (some o)
        (entries.map (fun (name, value) => attributeLine name value) ++ [] :: rest) =
      (scan document (number + entries.length + 1) none rest).map
        ({ o.declaration with attributes := entries.foldl (fun m (name, value) =>
          m.insert name value) o.declaration.attributes } :: ·) := by
  induction entries generalizing o number with
  | nil => exact scan_blank o number rest
  | cons entry entries ih =>
    obtain ⟨name, value⟩ := entry
    obtain ⟨hname, hvalue⟩ := hentries name value List.mem_cons_self
    have hnext := ih (fun name value h => hentries name value (List.mem_cons_of_mem _ h))
      (o := o.carrying (o.declaration.attributes.insert name value) (some (name, 4))) ho
      (number + 1)
    rw [List.map_cons, List.cons_append, scan, Option.bind_some,
      absorb_attributeLine ho hname hvalue]
    simp only
    rw [hnext, List.length_cons, Nat.add_right_comm number 1, ← Nat.add_assoc]
    rfl

theorem scan_writtenLines {ds : List Declaration} (h : ∀ d ∈ ds, WellFormed d) (number : Nat) :
    scan document number none (writtenLines ds) = .ok (placed number ds) := by
  induction ds generalizing number with
  | nil => rfl
  | cons d ds ih =>
    rw [List.forall_mem_cons] at h
    have hentries : ∀ name value, (name, value) ∈ d.attributes.entries →
        IsName name ∧ IsValue value := fun name value hentry =>
      h.1.attributes name value (SortedMap.mem_entries.mp hentry)
    have hattributes : d.attributes.entries.foldl (fun m (name, value) => m.insert name value) ∅ =
        d.attributes := d.attributes.ofList_entries
    have hlines : writtenLines (d :: ds) = openingLine d.tag ::
        (d.attributes.entries.map (fun (name, value) => attributeLine name value) ++
          [] :: writtenLines ds) := by
      simp [writtenLines, directiveLines]
    rw [hlines, scan, Option.bind_none]
    simp only [start_openingLine document number h.1.tag]
    rw [scan_attributeLines hentries rfl, ih h.2, hattributes]
    have hnext : number + 1 + d.attributes.entries.length + 1 = number + d.attributes.size + 2 := by
      rw [SortedMap.size]
      omega
    rw [hnext]
    rfl

theorem read_written {ds : List Declaration} (h : ∀ d ∈ ds, WellFormed d) :
    read document (written ds) = .ok (placed 1 ds) := by
  rw [read, written, lines_unlines (isLine_of_mem_writtenLines h)]
  exact scan_writtenLines h 1

end Read

section Placed

/-- What a declaration says, wherever it stands. -/
def said (d : Declaration) : String × Attributes := (d.tag, d.attributes)

theorem map_said_placed (number : Nat) (ds : List Declaration) :
    (placed number ds).map said = ds.map said := by
  induction ds generalizing number with
  | nil => rfl
  | cons d ds ih => rw [placed, List.map_cons, List.map_cons, ih, said, said]

theorem length_directiveLines (d : Declaration) :
    (directiveLines d).length = d.attributes.size + 2 := by
  simp [directiveLines, SortedMap.size]

/-- In the line of a placed declaration stands the marker with its tag. -/
theorem exists_openingLine {number : Nat} {ds : List Declaration} {d : Declaration}
    (h : d ∈ placed number ds) :
    ∃ k, d.line = number + k ∧ (writtenLines ds)[k]? = some (openingLine d.tag) := by
  induction ds generalizing number with
  | nil => exact absurd h List.not_mem_nil
  | cons first ds ih =>
    rw [placed, List.mem_cons] at h
    rcases h with rfl | h
    · exact ⟨0, rfl, rfl⟩
    · obtain ⟨k, hline, hk⟩ := ih h
      refine ⟨first.attributes.size + 2 + k, by omega, ?_⟩
      rw [writtenLines, List.flatMap_cons, List.getElem?_append_right (by
        rw [length_directiveLines]
        omega), length_directiveLines, Nat.add_sub_cancel_left]
      exact hk

end Placed

/-- What is read off directives is well formed and stands in later and later lines. Well-formed
declarations are read back as they were written, each in the line of its marker, and so what was
read once is read again from what is written for it. -/
theorem directives_round_trip :
    (∀ document content ds, read document content = .ok ds →
      (∀ d ∈ ds, WellFormed d) ∧ ds.Pairwise (·.line < ·.line)) ∧
    (∀ document ds, (∀ d ∈ ds, WellFormed d) →
      read document (written ds) = .ok (placed 1 ds) ∧
      (placed 1 ds).map said = ds.map said ∧
      ∀ d ∈ placed 1 ds, ∃ k, d.line = k + 1 ∧
        (lines (written ds))[k]? = some (openingLine d.tag)) ∧
    ∀ document document' content ds, read document content = .ok ds →
      ∃ again, read document' (written ds) = .ok again ∧
        again.map said = ds.map said := by
  refine ⟨fun document content ds h => ⟨wellFormed_read h, increasing_read h⟩,
    fun document ds h => ⟨read_written h, map_said_placed 1 ds, fun d hd => ?_⟩,
    fun document document' content ds h =>
      ⟨placed 1 ds, read_written (wellFormed_read h), map_said_placed 1 ds⟩⟩
  obtain ⟨k, hline, hk⟩ := exists_openingLine hd
  rw [written, lines_unlines (isLine_of_mem_writtenLines h)]
  exact ⟨k, by omega, hk⟩

/-- A value can look like a directive and like an attribute. -/
example : read "a.rst" (written
      [⟨"X", .ofList [("note", ":to: Y"), ("text", ".. traceable:: Z")], 9⟩,
      ⟨"Ü", ∅, 9⟩]) =
    .ok [⟨"X", .ofList [("note", ":to: Y"), ("text", ".. traceable:: Z")], 1⟩, ⟨"Ü", ∅, 5⟩] := by
  decide +kernel

end Traceability.Document.Directive
