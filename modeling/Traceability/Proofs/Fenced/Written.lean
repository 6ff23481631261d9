import Traceability.Proofs.Fenced.Body
import Traceability.Proofs.Filter.NextToken
import Traceability.Proofs.Markdown.Fences
import Traceability.Proofs.Sorted.Lookup
import Traceability.Proofs.Text.Words

/-!
Declarations written as fenced blocks: the tag behind the first fence and one line for each
attribute, in the order of their names. Reading gives them back, each with the line of its first
fence. Blocks with other lines are read as far as the first line that is faulty.
-/

namespace Traceability.Document.Fenced

open Text
open Markdown (Fence OneLine closesBlock fenceMark numbered)

/-- Letters, digits and the marks that join them. -/
structure IsTag (tag : String) : Prop where
  ne_empty : tag ≠ ""
  characters : ∀ c ∈ tag.toList, isAlphanumeric c = true ∨ c = '-' ∨ c = '_' ∨ c = '.'

structure IsName (name : String) : Prop where
  trimmed : trim name.toList = name.toList
  oneLine : OneLine name.toList
  colon_notMem : ':' ∉ name.toList
  not_comment : name.toList.head? ≠ some '#'

structure IsValue (value : String) : Prop where
  trimmed : trim value.toList = value.toList
  oneLine : OneLine value.toList

instance (name : String) : Decidable (IsName name) :=
  decidable_of_iff
    (trim name.toList = name.toList ∧ OneLine name.toList ∧ ':' ∉ name.toList ∧
      name.toList.head? ≠ some '#')
    ⟨fun ⟨htrimmed, hline, hcolon, hcomment⟩ => ⟨htrimmed, hline, hcolon, hcomment⟩,
      fun h => ⟨h.trimmed, h.oneLine, h.colon_notMem, h.not_comment⟩⟩

instance (value : String) : Decidable (IsValue value) :=
  decidable_of_iff (trim value.toList = value.toList ∧ OneLine value.toList)
    ⟨fun ⟨htrimmed, hline⟩ => ⟨htrimmed, hline⟩, fun h => ⟨h.trimmed, h.oneLine⟩⟩

structure WellFormed (d : Declaration) : Prop where
  tag : IsTag d.tag
  attributes : ∀ name value, d.attributes.get? name = some value → IsName name ∧ IsValue value

/-- A tag and the lines of a block, whatever stands in them. -/
structure Block where
  tag : String
  body : List (List Char)

/-- None of the lines ends the block. -/
structure Block.WellFormed (b : Block) : Prop where
  tag : IsTag b.tag
  body : ∀ line ∈ b.body, OneLine line ∧ closesBlock line = false

def infoOf (tag : String) : List Char := "traceable".toList ++ ' ' :: tag.toList

def openingLine (tag : String) : List Char := fenceMark ++ infoOf tag

def attributeLine (name value : String) : List Char := name.toList ++ ':' :: ' ' :: value.toList

def Block.fence (b : Block) : Fence := ⟨0, infoOf b.tag, b.body⟩

def blockOf (d : Declaration) : Block :=
  ⟨d.tag, d.attributes.entries.map fun (name, value) => attributeLine name value⟩

def written (bs : List Block) : List Char := unlines (bs.flatMap fun b => b.fence.written)

/-- The line that a text goes on in. -/
def lineBehind (above : List Char) : Nat := above.count '\n' + 1

/-- The declarations with the lines that they are written in, from a given line on. -/
def placed (number : Nat) : List Declaration → List Declaration
  | [] => []
  | d :: ds => { d with line := number } :: placed (number + d.attributes.size + 3) ds

section Tag

variable {tag : String}

theorem IsTag.of_all (hne : tag ≠ "") (hall : tag.toList.all (fun c =>
    isAlphanumeric c || c == '-' || c == '_' || c == '.') = true) : IsTag tag where
  ne_empty := hne
  characters := by
    intro c hc
    have hone := List.all_eq_true.mp hall c hc
    simpa only [Bool.or_eq_true, beq_iff_eq, or_assoc] using hone

theorem IsTag.toList_ne_nil (h : IsTag tag) : tag.toList ≠ [] := by
  rw [Ne, String.toList_eq_nil_iff]
  exact h.ne_empty

/-- What is neither a blank nor means something to Markdown. -/
def IsPlain (c : Char) : Prop :=
  isBlank c = false ∧ c ≠ Markdown.backtick ∧ c ≠ '\\' ∧ c ≠ '&'

instance (c : Char) : Decidable (IsPlain c) := inferInstanceAs (Decidable (_ ∧ _))

theorem isPlain_of_isAlphanumeric {c : Char} (h : isAlphanumeric c = true) : IsPlain c := by
  refine ⟨?_, ?_, ?_, ?_⟩
  · rw [← Bool.not_eq_true]
    intro hblank
    have hglues := Filter.glues_of_isBlank hblank
    rw [Filter.glues, h] at hglues
    contradiction
  · rintro rfl
    exact absurd h (by decide)
  · rintro rfl
    exact absurd h (by decide)
  · rintro rfl
    exact absurd h (by decide)

theorem IsTag.isPlain (h : IsTag tag) {c : Char} (hc : c ∈ tag.toList) : IsPlain c := by
  rcases h.characters c hc with halphanumeric | rfl | rfl | rfl
  · exact isPlain_of_isAlphanumeric halphanumeric
  · decide
  · decide
  · decide

theorem isTag_traceable : IsTag "traceable" := .of_all (by decide) (by decide)

theorem IsTag.eq_or_isPlain (h : IsTag tag) {c : Char} (hc : c ∈ infoOf tag) :
    c = ' ' ∨ IsPlain c := by
  unfold infoOf at hc
  rw [List.mem_append, List.mem_cons] at hc
  rcases hc with hword | rfl | htag
  · exact .inr (isTag_traceable.isPlain hword)
  · exact .inl rfl
  · exact .inr (h.isPlain htag)

theorem isBlank_of_isAsciiBlank {c : Char} (h : Markdown.isAsciiBlank c = true) :
    isBlank c = true := by
  simp only [Markdown.isAsciiBlank, isBlank, Bool.or_eq_true, beq_iff_eq, Bool.and_eq_true,
    decide_eq_true_eq] at h ⊢
  rcases h with rfl | h
  · decide
  · simp [h]

theorem IsPlain.isAsciiBlank {c : Char} (h : IsPlain c) : Markdown.isAsciiBlank c = false := by
  rw [← Bool.not_eq_true]
  intro hblank
  have hplain := h.1
  rw [isBlank_of_isAsciiBlank hblank] at hplain
  contradiction

theorem IsTag.isInfo (h : IsTag tag) : Markdown.IsInfo (infoOf tag) where
  oneLine := by
    have hbreak {c : Char} (hblank : isBlank c = true) (hc : c ≠ ' ') : c ∉ infoOf tag := by
      intro hmem
      rcases h.eq_or_isPlain hmem with heq | hplain
      · exact hc heq
      · rw [hplain.1] at hblank
        contradiction
    exact ⟨hbreak (by decide) (by decide), hbreak (by decide) (by decide)⟩
  backtick_notMem := by
    intro hmem
    rcases h.eq_or_isPlain hmem with heq | hplain
    · exact absurd heq (by decide)
    · exact hplain.2.1 rfl
  head := by
    intro c hc
    have hhead : (infoOf tag).head? = some 't' := rfl
    rw [hhead] at hc
    cases hc
    decide
  last := by
    intro c hc
    have hlast : (infoOf tag).getLast? = tag.toList.getLast? := by
      unfold infoOf
      rw [List.getLast?_append_of_ne_nil _ (List.cons_ne_nil _ _),
        List.getLast?_cons_of_ne_nil h.toList_ne_nil]
    rw [hlast] at hc
    exact (h.isPlain (List.mem_of_getLast? hc)).isAsciiBlank

/-- Without a backslash, a reference or a carriage return a text stays as it is. -/
theorem unescaped_of_plain {s : List Char} (h : ∀ c ∈ s, c ≠ '\\' ∧ c ≠ '&' ∧ c ≠ '\r')
    (fuel : Nat) : Markdown.Entity.unescaped fuel s = s := by
  induction fuel generalizing s with
  | zero => rfl
  | succ fuel ih =>
    cases s with
    | nil => rfl
    | cons c s =>
      obtain ⟨⟨hbackslash, hreference, hreturn⟩, hs⟩ := List.forall_mem_cons.mp h
      rw [Markdown.Entity.unescaped.eq_def]
      simp [hbackslash, hreturn, ih hs]

theorem IsTag.words_infoOf (h : IsTag tag) :
    words (infoOf tag) = ["traceable".toList, tag.toList] := by
  have hword {tag : String} (htag : IsTag tag) : IsWord tag.toList :=
    ⟨htag.toList_ne_nil, fun c hc => (htag.isPlain hc).1⟩
  unfold infoOf
  rw [words_append_space, words_of_isWord (hword isTag_traceable), words_of_isWord (hword h),
    List.singleton_append]

theorem IsTag.names {b : Block} (h : IsTag b.tag) (number : Nat) :
    Names { b.fence with number } b.tag := by
  have hplain : ∀ c ∈ infoOf b.tag, c ≠ '\\' ∧ c ≠ '&' ∧ c ≠ '\r' := by
    intro c hc
    rcases h.eq_or_isPlain hc with rfl | ⟨hblank, -, hbackslash, hreference⟩
    · decide
    · refine ⟨hbackslash, hreference, ?_⟩
      rintro rfl
      exact absurd hblank (by decide)
  unfold Names Block.fence
  rw [unescaped_of_plain hplain]
  exact h.words_infoOf

end Tag

section Attribute

variable {name value : String}

theorem attributeLine_oneLine (hname : IsName name) (hvalue : IsValue value) :
    OneLine (attributeLine name value) := by
  have hcolon {c : Char} (hc : c ∉ [':', ' ']) (hmem : c ∉ value.toList) :
      c ∉ ':' :: ' ' :: value.toList := by
    simp only [List.mem_cons, List.not_mem_nil, or_false, not_or] at hc ⊢
    exact ⟨hc.1, hc.2, hmem⟩
  exact ⟨List.not_mem_append hname.oneLine.1 (hcolon (by decide) hvalue.oneLine.1),
    List.not_mem_append hname.oneLine.2 (hcolon (by decide) hvalue.oneLine.2)⟩

/-- A line starts with its name, or with the colon. -/
theorem head?_append_colon (hname : IsName name) (more : List Char) :
    ∀ c ∈ (name.toList ++ ':' :: more).head?, isBlank c = false ∧ c ≠ '#' := by
  intro c hc
  have hblank := head?_trim name.toList
  have hcomment := hname.not_comment
  rw [hname.trimmed] at hblank
  cases hcharacters : name.toList with
  | nil =>
    rw [hcharacters] at hc
    cases hc
    decide
  | cons first characters =>
    rw [hcharacters] at hc hblank hcomment
    have heq : first = c := Option.some.inj hc
    subst heq
    refine ⟨hblank first rfl, ?_⟩
    rintro rfl
    exact hcomment rfl

theorem attributeLine_closesBlock (hname : IsName name) (hvalue : IsValue value) :
    closesBlock (attributeLine name value) = false := by
  have hcolon : ':' ∈ attributeLine name value :=
    List.mem_append_right _ List.mem_cons_self
  refine Markdown.closesBlock_of_mem (attributeLine_oneLine hname hvalue) (fun c hc => ?_) hcolon
    (by decide) (by decide)
  have hblank := (head?_append_colon hname _ c hc).1
  constructor
  · rintro rfl
    exact absurd hblank (by decide)
  · rintro rfl
    exact absurd hblank (by decide)

/-- Without a value the line ends in a blank, which is lost. -/
theorem exists_trim_attributeLine (hname : IsName name) (hvalue : IsValue value) :
    ∃ more, trim (attributeLine name value) = name.toList ++ ':' :: more ∧
      trim more = value.toList := by
  unfold attributeLine
  cases hcharacters : value.toList with
  | nil =>
    have hblank : ∀ c ∈ [' '], isBlank c = true := List.forall_mem_singleton.mpr rfl
    refine ⟨[], ?_, rfl⟩
    rw [← List.singleton_append, ← List.append_assoc, trim_append_blank _ hblank]
    apply trim_of_ends
    · exact fun c hc => (head?_append_colon hname [] c hc).1
    · intro c hc
      rw [List.getLast?_concat] at hc
      cases hc
      decide
  | cons first characters =>
    have hlast := getLast?_trim value.toList
    rw [hvalue.trimmed, hcharacters] at hlast
    refine ⟨' ' :: first :: characters, ?_, ?_⟩
    · apply trim_of_ends
      · exact fun c hc => (head?_append_colon hname _ c hc).1
      · rw [List.getLast?_append_of_ne_nil _ (List.cons_ne_nil _ _)]
        exact hlast
    · rw [trim_space_cons, ← hcharacters, hvalue.trimmed]

theorem pair?_append_colon (hname : IsName name) (more : List Char) :
    pair? (name.toList ++ ':' :: more) = some (name, String.ofList (trim more)) := by
  have hcut : ∀ c ∈ name.toList, (c != ':') = true := by
    intro c hc
    rw [bne_iff_ne]
    rintro rfl
    exact hname.colon_notMem hc
  have hdrop : (name.toList ++ ':' :: more).dropWhile (· != ':') = ':' :: more := by
    rw [List.dropWhile_append_of_pos hcut]
    rfl
  have htake : (name.toList ++ ':' :: more).takeWhile (· != ':') = name.toList := by
    rw [List.takeWhile_append_of_pos hcut]
    simp
  unfold pair?
  simp only [hdrop, htake, hname.trimmed, String.ofList_toList]

theorem attributes_attributeLine (document tag : String) (number : Nat) (found : Attributes)
    (hname : IsName name) (hvalue : IsValue value) (rest : List (List Char)) :
    attributes document tag number found (attributeLine name value :: rest) =
      attributes document tag (number + 1) (found.insert name value) rest := by
  obtain ⟨more, hline, hmore⟩ := exists_trim_attributeLine hname hvalue
  have hkept : isSkipped (name.toList ++ ':' :: more) = false := by
    rw [isSkipped, Bool.or_eq_false_iff, beq_eq_false_iff_ne]
    refine ⟨by simp, fun hhead => ?_⟩
    exact (head?_append_colon hname more '#' hhead).2 rfl
  rw [attributes]
  simp only [hline, hkept, pair?_append_colon hname, hmore, String.ofList_toList]
  rfl

/-- Each of the lines gives its attribute. -/
theorem attributes_attributeLines (document tag : String) {entries : List (String × String)}
    (h : ∀ name value, (name, value) ∈ entries → IsName name ∧ IsValue value) (number : Nat)
    (found : Attributes) :
    attributes document tag number found
        (entries.map fun (name, value) => attributeLine name value) =
      .ok (entries.foldl (fun m (name, value) => m.insert name value) found) := by
  induction entries generalizing number found with
  | nil => rfl
  | cons entry entries ih =>
    obtain ⟨name, value⟩ := entry
    obtain ⟨hname, hvalue⟩ := h name value List.mem_cons_self
    rw [List.map_cons, attributes_attributeLine document tag number found hname hvalue,
      ih fun name value hentry => h name value (List.mem_cons_of_mem _ hentry)]
    rfl

end Attribute

section Numbered

variable {number : Nat} {front behind : List Fence} {f : Fence}

theorem numbered_append (number : Nat) (front behind : List Fence) :
    numbered number (front ++ behind) =
      numbered number front ++ numbered (number + (front.flatMap Fence.written).length) behind := by
  induction front generalizing number with
  | nil => rfl
  | cons f front ih =>
    rw [List.cons_append, numbered, ih, numbered, List.flatMap_cons, List.length_append,
      Nat.add_assoc, List.cons_append]

theorem exists_of_numbered_eq {fs : List Fence} (h : numbered number fs = front ++ f :: behind) :
    ∃ front' g behind', fs = front' ++ g :: behind' ∧ front = numbered number front' ∧
      f = { g with number := number + (front'.flatMap Fence.written).length } := by
  induction front generalizing number fs with
  | nil =>
    cases fs with
    | nil => contradiction
    | cons g fs =>
      rw [numbered, List.nil_append] at h
      exact ⟨[], g, fs, rfl, rfl, (List.cons.inj h).1.symm⟩
  | cons first front ih =>
    cases fs with
    | nil => contradiction
    | cons g fs =>
      rw [numbered, List.cons_append] at h
      obtain ⟨hfirst, hfront⟩ := List.cons.inj h
      obtain ⟨front', g', behind', rfl, rfl, hf⟩ := ih hfront
      refine ⟨g :: front', g', behind', rfl, ?_, ?_⟩
      · rw [numbered, hfirst]
      · rw [hf, List.flatMap_cons, List.length_append, Nat.add_assoc]

end Numbered

section Read

variable {document : String}

theorem Block.WellFormed.writable {b : Block} (h : b.WellFormed) : b.fence.Writable :=
  ⟨h.tag.isInfo, h.body⟩

theorem wellFormed_blockOf {d : Declaration} (h : WellFormed d) : (blockOf d).WellFormed where
  tag := h.tag
  body := by
    intro line hline
    obtain ⟨⟨name, value⟩, hentry, rfl⟩ := List.mem_map.mp hline
    obtain ⟨hname, hvalue⟩ := h.attributes name value (SortedMap.mem_entries.mp hentry)
    exact ⟨attributeLine_oneLine hname hvalue, attributeLine_closesBlock hname hvalue⟩

theorem fences_written {bs : List Block} (h : ∀ b ∈ bs, b.WellFormed) :
    Markdown.fences (written bs) = numbered 1 (bs.map Block.fence) := by
  have hwritable : ∀ f ∈ bs.map Block.fence, f.Writable := by
    intro f hf
    obtain ⟨b, hb, rfl⟩ := List.mem_map.mp hf
    exact (h b hb).writable
  rw [← Markdown.fences_written hwritable, List.flatMap_map]
  rfl

theorem declaration?_blockOf {d : Declaration} (h : WellFormed d) (number : Nat) :
    declaration? document { (blockOf d).fence with number } =
      .ok (some { d with line := number }) := by
  have hentries : ∀ name value, (name, value) ∈ d.attributes.entries →
      IsName name ∧ IsValue value := fun name value hentry =>
    h.attributes name value (SortedMap.mem_entries.mp hentry)
  have hattributes : d.attributes.entries.foldl (fun m (name, value) => m.insert name value) ∅ =
      d.attributes := d.attributes.ofList_entries
  have hnames : Names { (blockOf d).fence with number } d.tag := IsTag.names h.tag number
  have hread := attributes_attributeLines document d.tag hentries (number + 1) ∅
  rw [hattributes] at hread
  rw [declaration?_of_names document hnames]
  exact congrArg (Except.map _) hread

theorem length_written_blockOf (d : Declaration) :
    (blockOf d).fence.written.length = d.attributes.size + 3 := by
  rw [Fence.length_written, Block.fence, blockOf, List.length_map, SortedMap.size]

theorem readAll_blocksOf {ds : List Declaration} (h : ∀ d ∈ ds, WellFormed d) (number : Nat) :
    readAll document (numbered number (ds.map fun d => (blockOf d).fence)) =
      .ok (placed number ds) := by
  induction ds generalizing number with
  | nil => rfl
  | cons d ds ih =>
    obtain ⟨hd, hds⟩ := List.forall_mem_cons.mp h
    rw [List.map_cons, numbered, readAll, declaration?_blockOf hd, ih hds, length_written_blockOf]
    rfl

theorem read_written {ds : List Declaration} (h : ∀ d ∈ ds, WellFormed d) :
    read document (written (ds.map blockOf)) = .ok (placed 1 ds) := by
  have hblocks : ∀ b ∈ ds.map blockOf, b.WellFormed := by
    intro b hb
    obtain ⟨d, hd, rfl⟩ := List.mem_map.mp hb
    exact wellFormed_blockOf (h d hd)
  rw [read, fences_written hblocks, List.map_map]
  exact readAll_blocksOf h 1

end Read

section Lines

theorem lineFeed_notMem_written {bs : List Block} (h : ∀ b ∈ bs, b.WellFormed) :
    ∀ line ∈ bs.flatMap (fun b => b.fence.written), '\n' ∉ line := by
  intro line hline
  obtain ⟨b, hb, hline⟩ := List.mem_flatMap.mp hline
  exact ((h b hb).writable.oneLine line hline).1

theorem written_append (front behind : List Block) :
    written (front ++ behind) = written front ++ written behind := by
  simp [written, unlines]

theorem written_cons (b : Block) (bs : List Block) :
    written (b :: bs) = unlines b.fence.written ++ written bs := by
  simp [written, unlines]

/-- Every line before a block ends in the one line feed that is counted for it. -/
theorem lineBehind_written {bs : List Block} (h : ∀ b ∈ bs, b.WellFormed) :
    lineBehind (written bs) = 1 + (bs.flatMap fun b => b.fence.written).length := by
  rw [lineBehind, written, count_unlines (lineFeed_notMem_written h), Nat.add_comm]

theorem getElem?_placed (number : Nat) (front behind : List Declaration) (d : Declaration) :
    (placed number (front ++ d :: behind))[front.length]? = some { d with line :=
      number + ((front.map blockOf).flatMap fun b => b.fence.written).length } := by
  induction front generalizing number with
  | nil => rfl
  | cons first front ih =>
    rw [List.cons_append, placed, List.length_cons, List.getElem?_cons_succ, ih, List.map_cons,
      List.flatMap_cons, List.length_append, length_written_blockOf, Nat.add_assoc number,
      Nat.add_assoc number]

/-- Behind a part of the blocks the next one starts. -/
theorem openingLine_prefix (front behind : List Block) (b : Block) :
    written front ++ openingLine b.tag <+: written (front ++ b :: behind) := by
  rw [written_append, List.prefix_append_right_inj, written_cons, Fence.written, List.cons_append,
    unlines_cons, List.append_assoc]
  exact List.prefix_append _ _

theorem lineBehind_body {front : List Block} (hfront : ∀ b ∈ front, b.WellFormed) {b : Block}
    (hb : b.WellFormed) {above below : List (List Char)} {line : List Char}
    (hbody : b.body = above ++ line :: below) :
    lineBehind (written front ++ unlines (openingLine b.tag :: above)) =
      1 + (front.flatMap fun b => b.fence.written).length + 1 + above.length := by
  have hlines : ∀ line ∈ openingLine b.tag :: above, '\n' ∉ line := by
    rw [List.forall_mem_cons]
    refine ⟨(hb.writable.oneLine _ List.mem_cons_self).1, fun other hother => ?_⟩
    exact (hb.body other (hbody ▸ List.mem_append_left _ hother)).1.1
  have hwritten := lineBehind_written hfront
  rw [lineBehind] at hwritten ⊢
  rw [List.count_append, count_unlines hlines, List.length_cons]
  omega

end Lines

section Faults

variable {document : String} {bs : List Block} {fault : Fault}

/-- Whether blocks can be read does not depend on the lines in which they start. -/
theorem declared_iff (h : ∀ b ∈ bs, b.WellFormed) (number : Nat) :
    (∀ f ∈ numbered number (bs.map Block.fence), ∃ found, declaration? document f = .ok found) ↔
      ∀ b ∈ bs, ∀ line ∈ b.body, ¬ IsFaulty line := by
  induction bs generalizing number with
  | nil => simp [numbered]
  | cons b bs ih =>
    obtain ⟨hb, hbs⟩ := List.forall_mem_cons.mp h
    rw [List.map_cons, numbered, List.forall_mem_cons, List.forall_mem_cons, ih hbs,
      exists_declaration?_ok_iff (IsTag.names hb.tag number)]
    rfl

theorem exists_read_error_iff (h : ∀ b ∈ bs, b.WellFormed) :
    (∃ fault, read document (written bs) = .error fault) ↔
      ∃ b ∈ bs, ∃ line ∈ b.body, IsFaulty line := by
  have hok : (∃ ds, read document (written bs) = .ok ds) ↔
      ∀ b ∈ bs, ∀ line ∈ b.body, ¬ IsFaulty line := by
    rw [read, fences_written h, exists_readAll_ok_iff, declared_iff h]
  rw [exists_ok_iff] at hok
  rw [← not_iff_not, hok]
  simp

/-- A fault is that of the first faulty line, wherever its block stands. -/
theorem read_written_eq_error_iff (h : ∀ b ∈ bs, b.WellFormed) :
    read document (written bs) = .error fault ↔
      ∃ front b behind above line below, bs = front ++ b :: behind ∧
        b.body = above ++ line :: below ∧
        (∀ other ∈ front.flatMap Block.body ++ above, ¬ IsFaulty other) ∧ IsFaulty line ∧
        fault = .blockLine
          ⟨document, lineBehind (written front ++ unlines (openingLine b.tag :: above))⟩ b.tag
          (String.ofList (trim line)) := by
  have hclean (front : List Block) (above : List (List Char)) :
      (∀ other ∈ front.flatMap Block.body ++ above, ¬ IsFaulty other) ↔
        (∀ b ∈ front, ∀ line ∈ b.body, ¬ IsFaulty line) ∧ ∀ line ∈ above, ¬ IsFaulty line := by
    rw [List.forall_mem_append, List.forall_mem_flatMap]
  have hblock {front : List Block} {b : Block} {behind : List Block}
      (hbs : bs = front ++ b :: behind) :
      (∀ b ∈ front, b.WellFormed) ∧ b.WellFormed := by
    rw [hbs, List.forall_mem_append, List.forall_mem_cons] at h
    exact ⟨h.1, h.2.1⟩
  rw [read, fences_written h, readAll_eq_error_iff]
  -- The fences are those of the blocks, so a fence that is read first has a block in its place.
  constructor
  · intro hread
    obtain ⟨front, f, behind, hnumbered, hfront, hf⟩ := hread
    obtain ⟨front, g, behind, hmap, rfl, rfl⟩ := exists_of_numbered_eq hnumbered
    obtain ⟨front, rest, hbs, rfl, hrest⟩ := List.map_eq_append_iff.mp hmap
    obtain ⟨b, behind, rfl, rfl, rfl⟩ := List.map_eq_cons_iff.mp hrest
    obtain ⟨hfronts, hb⟩ := hblock hbs
    rw [declaration?_eq_error_iff (IsTag.names hb.tag _), attributes_eq_error_iff] at hf
    obtain ⟨above, line, below, hbody, habove, hline, rfl⟩ := hf
    refine ⟨front, b, behind, above, line, below, hbs, hbody,
      (hclean front above).mpr ⟨(declared_iff hfronts 1).mp hfront, habove⟩, hline, ?_⟩
    rw [lineBehind_body hfronts hb hbody, List.flatMap_map]
  · intro hfault
    obtain ⟨front, b, behind, above, line, below, hbs, hbody, hnone, hline, rfl⟩ := hfault
    obtain ⟨hfronts, hb⟩ := hblock hbs
    obtain ⟨hfront, habove⟩ := (hclean front above).mp hnone
    let number := 1 + ((front.map Block.fence).flatMap Fence.written).length
    have hnumbered : numbered 1 (bs.map Block.fence) = numbered 1 (front.map Block.fence) ++
        { b.fence with number } :: numbered (number + b.fence.written.length)
          (behind.map Block.fence) := by
      rw [hbs, List.map_append, List.map_cons, numbered_append, numbered]
    refine ⟨_, _, _, hnumbered, (declared_iff hfronts 1).mpr hfront, ?_⟩
    rw [declaration?_eq_error_iff (IsTag.names hb.tag _), attributes_eq_error_iff]
    refine ⟨above, line, below, hbody, habove, hline, ?_⟩
    rw [lineBehind_body hfronts hb hbody, ← List.flatMap_map]

end Faults

theorem length_placed (number : Nat) (ds : List Declaration) :
    (placed number ds).length = ds.length := by
  induction ds generalizing number with
  | nil => rfl
  | cons d ds ih => rw [placed, List.length_cons, List.length_cons, ih]

/-- Declarations are read back as they were written, each with the line of its first fence. A
block with other lines is read unless one of them is faulty, and then the fault names the line of
the document in which the first of these stands. -/
theorem blocks_round_trip :
    (∀ document ds, (∀ d ∈ ds, WellFormed d) →
      ∃ found, read document (written (ds.map blockOf)) = .ok found ∧
        found.length = ds.length ∧
        ∀ front d behind, ds = front ++ d :: behind →
          found[front.length]? =
            some { d with line := lineBehind (written (front.map blockOf)) } ∧
          written (front.map blockOf) ++ openingLine d.tag <+: written (ds.map blockOf)) ∧
    (∀ document f tag, Names f tag →
      ((∃ fault, declaration? document f = .error fault) ↔ ∃ line ∈ f.lines, IsFaulty line) ∧
      ∀ fault, declaration? document f = .error fault ↔
        ∃ above line below, f.lines = above ++ line :: below ∧
          (∀ other ∈ above, ¬ IsFaulty other) ∧ IsFaulty line ∧
          fault = .blockLine ⟨document, f.number + 1 + above.length⟩ tag
            (String.ofList (trim line))) ∧
    (∀ document content fault, read document content = .error fault ↔
      ∃ front f behind, Markdown.fences content = front ++ f :: behind ∧
        (∀ g ∈ front, ∃ found, declaration? document g = .ok found) ∧
        declaration? document f = .error fault) ∧
    ∀ document bs, (∀ b ∈ bs, b.WellFormed) →
      ((∃ fault, read document (written bs) = .error fault) ↔
        ∃ b ∈ bs, ∃ line ∈ b.body, IsFaulty line) ∧
      ∀ fault, read document (written bs) = .error fault ↔
        ∃ front b behind above line below, bs = front ++ b :: behind ∧
          b.body = above ++ line :: below ∧
          (∀ other ∈ front.flatMap Block.body ++ above, ¬ IsFaulty other) ∧ IsFaulty line ∧
          fault = .blockLine
            ⟨document, lineBehind (written front ++ unlines (openingLine b.tag :: above))⟩ b.tag
            (String.ofList (trim line)) := by
  refine ⟨fun document ds h => ?_, fun document f tag h => ?_,
    fun document content fault => readAll_eq_error_iff,
    fun document bs h => ⟨exists_read_error_iff h, fun fault => read_written_eq_error_iff h⟩⟩
  · refine ⟨placed 1 ds, read_written h, length_placed 1 ds, ?_⟩
    intro front d behind hds
    have hfront : ∀ b ∈ front.map blockOf, b.WellFormed := by
      intro b hb
      obtain ⟨d', hd', rfl⟩ := List.mem_map.mp hb
      exact wellFormed_blockOf (h d' (hds ▸ List.mem_append_left _ hd'))
    constructor
    · rw [hds, getElem?_placed, lineBehind_written hfront]
    · rw [hds, List.map_append, List.map_cons]
      exact openingLine_prefix _ _ (blockOf d)
  · refine ⟨exists_declaration?_error_iff h, fun fault => ?_⟩
    rw [declaration?_eq_error_iff h, attributes_eq_error_iff]

/-- Fences, colons and comment marks in a value, and an attribute with neither name nor value. -/
theorem blocks_round_trip_of_marks :
    let first : Declaration := ⟨"Ü-1_a.b", .ofList [("", ""), ("note", "``` 10:30 # x")], 9⟩
    let second : Declaration := ⟨"X", ∅, 9⟩
    (∀ d ∈ [first, second], WellFormed d) ∧
      ∃ found, read "a.md" (written ([first, second].map blockOf)) = .ok found ∧
        found.length = 2 ∧ found[0]? = some { first with line := 1 } ∧
        found[1]? = some { second with line := 6 } := by
  intro first second
  have hfirst : WellFormed first := by
    have hentries : ∀ entry ∈ first.attributes.entries, IsName entry.1 ∧ IsValue entry.2 := by
      decide +kernel
    exact ⟨.of_all (by decide) (by decide +kernel), fun name value hget =>
      hentries (name, value) (SortedMap.mem_entries.mpr hget)⟩
  have hsecond : WellFormed second :=
    ⟨.of_all (by decide) (by decide), fun name value hget => nomatch hget⟩
  have hwellFormed : ∀ d ∈ [first, second], WellFormed d := by
    rw [List.forall_mem_cons, List.forall_mem_singleton]
    exact ⟨hfirst, hsecond⟩
  obtain ⟨found, hread, hlength, hfound⟩ := blocks_round_trip.1 "a.md" _ hwellFormed
  refine ⟨hwellFormed, found, hread, hlength, (hfound [] first [second] rfl).1, ?_⟩
  have hline : lineBehind (written [blockOf first]) = 6 := by decide +kernel
  rw [← hline]
  exact (hfound [first] second [] rfl).1

end Traceability.Document.Fenced
