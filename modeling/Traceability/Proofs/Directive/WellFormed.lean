import Traceability.Document.Directive
import Traceability.Proofs.Sorted.Lookup
import Traceability.Proofs.Text.Lines
import Traceability.Proofs.Text.Trimmed

/-!
What directives can declare. The tag is one word, and names and values are trimmed, names
without a colon and both without a line feed. Every declaration that is read is of this form,
and declarations that are read one after the other stand in lines one after the other.
-/

namespace Traceability.Document.Directive

open Text

structure IsTag (tag : String) : Prop where
  ne_empty : tag ≠ ""
  isBlank_of_mem : ∀ c ∈ tag.toList, isBlank c = false

structure IsName (name : String) : Prop where
  ne_empty : name ≠ ""
  trimmed : trim name.toList = name.toList
  colon_notMem : ':' ∉ name.toList
  lineFeed_notMem : '\n' ∉ name.toList

structure IsValue (value : String) : Prop where
  trimmed : trim value.toList = value.toList
  lineFeed_notMem : '\n' ∉ value.toList

structure WellFormed (d : Declaration) : Prop where
  tag : IsTag d.tag
  attributes : ∀ name value, d.attributes.get? name = some value → IsName name ∧ IsValue value

theorem WellFormed.insert {d : Declaration} (h : WellFormed d) {name value : String}
    (hname : IsName name) (hvalue : IsValue value) :
    WellFormed { d with attributes := d.attributes.insert name value } := by
  refine ⟨h.tag, fun name' value' hget => ?_⟩
  rw [SortedMap.get?_insert] at hget
  split at hget
  · rename_i heq
    cases hget
    exact ⟨heq ▸ hname, hvalue⟩
  · exact h.attributes name' value' hget

section Lines

variable {line : List Char}

theorem isName_ofList {name : List Char} (hne : name ≠ []) (htrimmed : trim name = name)
    (hcolon : ':' ∉ name) (hfeed : '\n' ∉ name) : IsName (String.ofList name) where
  ne_empty := by simpa [String.ext_iff] using hne
  trimmed := by rw [String.toList_ofList, htrimmed]
  colon_notMem := by rwa [String.toList_ofList]
  lineFeed_notMem := by rwa [String.toList_ofList]

theorem isValue_trim {value : List Char} (hfeed : '\n' ∉ value) :
    IsValue (String.ofList (trim value)) where
  trimmed := by rw [String.toList_ofList, trim_trim]
  lineFeed_notMem := by
    rw [String.toList_ofList]
    exact fun hmem => hfeed (mem_of_mem_trim hmem)

/-- The parts of a line that gives an attribute. -/
theorem exists_option {name value : List Char} (h : option? line = some (name, value)) :
    ∃ c rest behind, trimStart line = ':' :: c :: rest ∧ c ≠ ':' ∧ isBlank c = false ∧
      rest.dropWhile (· != ':') = ':' :: behind ∧ (∀ b ∈ behind.head?, isBlank b = true) ∧
      name = trim (c :: rest.takeWhile (· != ':')) ∧ value = trim behind := by
  unfold option? at h
  split at h
  · contradiction
  · split at h
    · rename_i c rest hstart
      split at h
      · contradiction
      · rename_i hc
        split at h
        · contradiction
        · rename_i colon behind hdrop
          split at h
          · rename_i hbehind
            simp only [Option.some.injEq, Prod.mk.injEq] at h
            have hcolon := List.head?_dropWhile_not (· != ':') rest
            rw [hdrop] at hcolon
            simp only [List.head?_cons, bne_eq_false_iff_eq] at hcolon
            simp only [Bool.or_eq_true, beq_iff_eq, not_or, Bool.not_eq_true] at hc
            refine ⟨c, rest, behind, hstart, hc.1, hc.2, hcolon ▸ hdrop, ?_, h.1.symm, h.2.symm⟩
            intro b hb
            cases behind with
            | nil => contradiction
            | cons b' behind =>
              cases hb
              simpa using hbehind
          · contradiction
    · contradiction

theorem of_option? (hfeed : '\n' ∉ line) {name value : List Char}
    (h : option? line = some (name, value)) :
    IsName (String.ofList name) ∧ IsValue (String.ofList value) := by
  obtain ⟨c, rest, behind, hstart, hcolon, hblank, hdrop, -, rfl, rfl⟩ := exists_option h
  have hsub : ∀ x ∈ ':' :: c :: rest, x ∈ line := by
    rw [← hstart]
    exact fun x hx => List.dropWhile_sublist _ |>.subset hx
  have hrest : '\n' ∉ rest := fun hmem => hfeed (hsub _ (by simp [hmem]))
  have hc : c ≠ '\n' := by
    rintro rfl
    contradiction
  have hfirst : '\n' ∉ c :: rest.takeWhile (· != ':') := by
    rw [List.mem_cons, not_or]
    exact ⟨hc.symm, fun hmem => hrest (List.takeWhile_prefix _ |>.subset hmem)⟩
  have hsecond : '\n' ∉ behind := by
    intro hmem
    apply hrest
    apply (List.dropWhile_sublist (· != ':')).subset
    rw [hdrop]
    exact List.mem_cons_of_mem _ hmem
  refine ⟨isName_ofList ?_ (trim_trim _) ?_ fun hmem => hfirst (mem_of_mem_trim hmem),
    isValue_trim hsecond⟩
  · rw [Ne, trim_eq_nil_iff, List.all_cons, hblank]
    simp
  · intro hmem
    have hmem := mem_of_mem_trim hmem
    rw [List.mem_cons] at hmem
    rcases hmem with heq | hmem
    · exact hcolon heq.symm
    · have hnot := List.all_eq_true.mp (List.all_takeWhile (p := (· != ':'))) _ hmem
      contradiction

/-- A value goes on with a blank and further characters. -/
theorem IsValue.continued {value : String} (hvalue : IsValue value) (hfeed : '\n' ∉ line)
    (hline : line.all isBlank = false) :
    IsValue (continued value (String.ofList (trim line))) := by
  have hmore := isValue_trim hfeed
  unfold Directive.continued
  split
  · exact hmore
  · rename_i hne
    obtain ⟨c, characters, hvalue'⟩ : ∃ c characters, value.toList = c :: characters := by
      cases hcharacters : value.toList with
      | nil => simp [String.isEmpty_iff, String.ext_iff, hcharacters] at hne
      | cons c characters => exact ⟨c, characters, rfl⟩
    have htrim : trim line ≠ [] := by
      rw [Ne, trim_eq_nil_iff, hline]
      simp
    constructor
    · have hhead := head?_trim value.toList
      rw [hvalue.trimmed, hvalue'] at hhead
      simp only [String.toList_append, String.toList_ofList, hvalue']
      apply trim_of_ends
      · exact hhead
      · rw [List.getLast?_append_of_ne_nil _ htrim]
        exact getLast?_trim line
    · have hblank : '\n' ∉ " ".toList := by decide
      have htail := hmore.lineFeed_notMem
      simp only [String.toList_append, List.mem_append, not_or]
      exact ⟨⟨hvalue.lineFeed_notMem, hblank⟩, htail⟩

end Lines

section Steps

variable {o o' : Opened} {line : List Char}

/-- The directive with other attributes, the last of which stands at the given place. -/
def Opened.carrying (o : Opened) (attributes : Attributes) (last : Option (String × Nat)) :
    Opened :=
  ⟨{ o.declaration with attributes := attributes }, o.indent, last⟩

/-- A line that belongs to a directive is indented further than it, and gives an attribute or
goes on with the last one, if it is indented further than that. -/
theorem cases_absorb (h : o.absorb line = some o') :
    line.all isBlank = false ∧ o.indent < indentOf line ∧
      ((∃ name value, option? line = some (name, value) ∧
          o' = o.carrying
            (o.declaration.attributes.insert (String.ofList name) (String.ofList value))
            (some (String.ofList name, indentOf line))) ∨
        option? line = none ∧ ∃ name indent, o.last = some (name, indent) ∧
          indent < indentOf line ∧
          o' = o.carrying (o.declaration.attributes.modify name fun value =>
            continued value (String.ofList (trim line))) o.last) := by
  unfold Opened.absorb at h
  split at h
  · contradiction
  · rename_i hbelongs
    simp only [Bool.or_eq_true, decide_eq_true_eq, not_or, Bool.not_eq_true, Nat.not_le] at hbelongs
    refine ⟨hbelongs.1, hbelongs.2, ?_⟩
    cases hoption : option? line with
    | some found =>
      obtain ⟨name, value⟩ := found
      simp only [hoption, Option.some.injEq] at h
      exact Or.inl ⟨name, value, rfl, h.symm⟩
    | none =>
      rw [hoption] at h
      cases hlast : o.last with
      | none =>
        simp only [hlast] at h
        contradiction
      | some last =>
        obtain ⟨name, indent⟩ := last
        simp only [hlast] at h
        split at h
        · contradiction
        · rename_i hfurther
          simp only [Option.some.injEq] at h
          exact Or.inr ⟨rfl, name, indent, rfl, Nat.lt_of_not_le hfurther, hlast ▸ h.symm⟩

theorem line_absorb (h : o.absorb line = some o') : o'.declaration.line = o.declaration.line := by
  obtain ⟨-, -, ⟨name, value, -, rfl⟩ | ⟨-, name, indent, -, -, rfl⟩⟩ := cases_absorb h
  · rfl
  · rfl

theorem wellFormed_absorb (hfeed : '\n' ∉ line) (ho : WellFormed o.declaration)
    (h : o.absorb line = some o') : WellFormed o'.declaration := by
  obtain ⟨hline, -, ⟨name, value, hoption, rfl⟩ | ⟨-, name, indent, -, -, rfl⟩⟩ := cases_absorb h
  · obtain ⟨hname, hvalue⟩ := of_option? hfeed hoption
    exact ho.insert hname hvalue
  · unfold Opened.carrying SortedMap.modify
    cases hget : o.declaration.attributes.get? name with
    | none => exact ho
    | some value =>
      obtain ⟨hname, hvalue⟩ := ho.attributes name value hget
      exact ho.insert hname (hvalue.continued hfeed hline)

theorem cases_start {document : String} {number : Nat}
    (h : start document number line = .ok (some o)) :
    ∃ argument, argument? line = some argument ∧ IsTag (String.ofList (trim argument)) ∧
      o = ⟨⟨String.ofList (trim argument), ∅, number⟩, indentOf line, none⟩ := by
  unfold start at h
  cases hargument : argument? line with
  | none =>
    simp [hargument] at h
  | some argument =>
    simp only [hargument] at h
    split at h
    · contradiction
    · rename_i hword
      simp only [Bool.or_eq_true, not_or, Bool.not_eq_true, List.isEmpty_eq_false_iff,
        List.any_eq_false] at hword
      simp only [Except.ok.injEq, Option.some.injEq] at h
      refine ⟨argument, rfl, ⟨?_, ?_⟩, h.symm⟩
      · simpa [String.ext_iff] using hword.1
      · simpa [String.toList_ofList] using hword.2

end Steps

section Read

variable {document : String} {ds : List Declaration}

/-- What an open directive declares, and every directive behind it, is well formed. -/
theorem wellFormed_scan {number : Nat} {opened : Option Opened} {ls : List (List Char)}
    (hls : ∀ line ∈ ls, '\n' ∉ line) (hopened : ∀ o ∈ opened, WellFormed o.declaration)
    (h : scan document number opened ls = .ok ds) : ∀ d ∈ ds, WellFormed d := by
  have hfinished (opened : Option Opened) (hopened : ∀ o ∈ opened, WellFormed o.declaration) :
      ∀ d ∈ Opened.finished opened, WellFormed d := by
    cases opened with
    | none => simp [Opened.finished]
    | some o => simpa [Opened.finished] using hopened
  fun_induction scan document number opened ls generalizing ds with
  | case1 number opened =>
    cases h
    exact hfinished opened hopened
  | case2 number opened line rest o habsorb ih =>
    rw [List.forall_mem_cons] at hls
    obtain ⟨before, hbefore, habsorb⟩ := Option.bind_eq_some_iff.mp habsorb
    apply ih hls.2 _ h
    intro o' ho'
    cases ho'
    exact wellFormed_absorb hls.1 (hopened before hbefore) habsorb
  | case3 => contradiction
  | case4 number opened line rest habsorb next hstart ih =>
    rw [List.forall_mem_cons] at hls
    cases hrest : scan document (number + 1) next rest with
    | error fault =>
      rw [hrest] at h
      contradiction
    | ok further =>
      rw [hrest] at h
      cases h
      rw [List.forall_mem_append]
      refine ⟨hfinished opened hopened, ih hls.2 ?_ hrest⟩
      intro o ho
      cases ho
      obtain ⟨argument, -, htag, rfl⟩ := cases_start hstart
      exact ⟨htag, by simp⟩

/-- Directives behind the open one start in later lines, one after the other. -/
theorem lines_scan {number : Nat} {opened : Option Opened} {ls : List (List Char)}
    (h : scan document number opened ls = .ok ds) :
    ∃ further, ds.map Declaration.line =
        (Opened.finished opened).map Declaration.line ++ further ∧
      further.Pairwise (· < ·) ∧ ∀ n ∈ further, number ≤ n := by
  fun_induction scan document number opened ls generalizing ds with
  | case1 number opened =>
    cases h
    exact ⟨[], (List.append_nil _).symm, List.Pairwise.nil, by simp⟩
  | case2 number opened line rest o habsorb ih =>
    obtain ⟨before, rfl, habsorb⟩ := Option.bind_eq_some_iff.mp habsorb
    obtain ⟨further, hlines, hincreasing, hlater⟩ := ih h
    refine ⟨further, ?_, hincreasing, fun n hn => Nat.le_of_succ_le (hlater n hn)⟩
    simpa [Opened.finished, line_absorb habsorb] using hlines
  | case3 => contradiction
  | case4 number opened line rest habsorb next hstart ih =>
    cases hrest : scan document (number + 1) next rest with
    | error fault =>
      rw [hrest] at h
      contradiction
    | ok found =>
      rw [hrest] at h
      cases h
      obtain ⟨further, hlines, hincreasing, hlater⟩ := ih hrest
      refine ⟨found.map Declaration.line, List.map_append, ?_, ?_⟩
      · cases next with
        | none =>
          rw [hlines]
          exact hincreasing
        | some o =>
          obtain ⟨argument, -, -, rfl⟩ := cases_start hstart
          rw [hlines]
          exact List.pairwise_cons.mpr ⟨fun n hn => hlater n hn, hincreasing⟩
      · intro n hn
        rw [hlines, List.mem_append] at hn
        rcases hn with hn | hn
        · cases next with
          | none => exact absurd hn List.not_mem_nil
          | some o =>
            obtain ⟨argument, -, -, rfl⟩ := cases_start hstart
            exact Nat.le_of_eq (List.mem_singleton.mp hn).symm
        · exact Nat.le_of_succ_le (hlater n hn)

theorem wellFormed_read {content : List Char} (h : read document content = .ok ds) :
    ∀ d ∈ ds, WellFormed d :=
  wellFormed_scan (fun _ => lineFeed_notMem) (by simp) h

theorem increasing_read {content : List Char} (h : read document content = .ok ds) :
    ds.Pairwise (·.line < ·.line) := by
  obtain ⟨further, hlines, hincreasing, -⟩ := lines_scan h
  rw [Opened.finished, Option.map_none, Option.toList_none, List.map_nil, List.nil_append] at hlines
  rw [← hlines, List.pairwise_map] at hincreasing
  exact hincreasing

end Read

end Traceability.Document.Directive
