import Traceability.View.Format
import Traceability.Proofs.Sorted.Lookup
import Traceability.Proofs.View.Table

/-!
Graphs in the DOT language are read back line by line. A line is cut into quoted texts, with
their escapes undone, and the characters around them. Whatever the tags, titles and relationship
names contain, none of them ends its quotes or its line.
-/

namespace Traceability.View.Dot

open Text

/-- A quoted text of a line, or a character outside the quotes. -/
inductive Piece where
  | mark (c : Char)
  | text (s : String)
deriving DecidableEq

/-- What a backslash and a character stand for. -/
def unescaped? (c : Char) : Option Char :=
  if c = '\\' ∨ c = '"' then some c else if c = 'n' then some '\n' else none

/-- The pieces of a line, in which a quoted text has been read so far or none is open. -/
def read : Option (List Char) → List Char → Option (List Piece)
  | none, [] => some []
  | some _, [] => none
  | none, c :: rest =>
      if c = '"' then read (some []) rest else (read none rest).map (.mark c :: ·)
  | some s, '\\' :: c :: rest => (unescaped? c).bind fun x => read (some (s ++ [x])) rest
  | some s, c :: rest =>
      if c = '"' then (read none rest).map (.text (String.ofList s) :: ·)
      else read (some (s ++ [c])) rest

def marks (s : String) : List Piece := s.toList.map .mark

/-- The pieces of a setting that stands behind others. -/
def settingPieces (name value : String) : List Piece :=
  marks (" " ++ name ++ "=") ++ [.text value]

/-- What the line of an item says: its tag, its label and the further settings of its style. -/
def nodePieces (item : Item) (label : String) (settings : List (String × String)) : List Piece :=
  marks "    " ++ .text item.tag :: (marks " [label=" ++ .text label ::
    (settings.flatMap (fun (name, value) => settingPieces name value) ++ marks "]"))

/-- What the line of an edge says: its ends, its relationship and whether it has no direction. -/
def edgePieces (e : Graph.Edge) : List Piece :=
  marks "    " ++ .text e.source :: (marks " -> " ++ .text e.target :: (marks " [label=" ++
    .text e.relationship :: ((if e.direction = .symmetric then settingPieces "dir" "none" else []) ++
      marks "]")))

section Quoted

theorem lineFeed_notMem_escape (c : Char) : '\n' ∉ escape c := by
  unfold escape
  split
  · decide
  · split
    · decide
    · split
      · decide
      · rename_i hfeed
        rw [List.mem_singleton]
        rintro rfl
        exact hfeed rfl

theorem toList_quoted (s : String) :
    (quoted s).toList = '"' :: (s.toList.flatMap escape ++ ['"']) := by
  rw [quoted, String.toList_ofList, List.cons_append]

theorem lineFeed_notMem_quoted (s : String) : '\n' ∉ (quoted s).toList := by
  rw [toList_quoted, List.mem_cons, List.mem_append, List.mem_flatMap]
  rintro (h | ⟨c, -, h⟩ | h)
  · contradiction
  · exact lineFeed_notMem_escape c h
  · simp at h

/-- An escaped character is read as the character, whatever stands behind it. -/
theorem read_escape (s : List Char) (c : Char) (rest : List Char) :
    read (some s) (escape c ++ rest) = read (some (s ++ [c])) rest := by
  unfold escape
  split
  · rename_i hbackslash
    rw [beq_iff_eq.mp hbackslash]
    rfl
  · rename_i hbackslash
    split
    · rename_i hquote
      rw [beq_iff_eq.mp hquote]
      rfl
    · rename_i hquote
      split
      · rename_i hfeed
        rw [beq_iff_eq.mp hfeed]
        rfl
      · rw [beq_iff_eq] at hbackslash hquote
        rw [List.singleton_append, read.eq_def]
        simp [hbackslash, hquote]

theorem read_escaped (s text rest : List Char) :
    read (some s) (text.flatMap escape ++ rest) = read (some (s ++ text)) rest := by
  induction text generalizing s with
  | nil => rw [List.flatMap_nil, List.nil_append, List.append_nil]
  | cons c text ih =>
    rw [List.flatMap_cons, List.append_assoc, read_escape, ih, List.append_assoc,
      List.singleton_append]

theorem read_quoted (s : String) (rest : List Char) :
    read none ((quoted s).toList ++ rest) = (read none rest).map (.text s :: ·) := by
  rw [toList_quoted, List.cons_append, List.append_assoc, read, if_pos rfl, read_escaped]
  simp [read]

theorem read_marks {s : String} (h : '"' ∉ s.toList) (rest : List Char) :
    read none (s.toList ++ rest) = (read none rest).map (marks s ++ ·) := by
  unfold marks
  generalize s.toList = plain at h ⊢
  induction plain with
  | nil => simp
  | cons c plain ih =>
    rw [List.mem_cons, not_or] at h
    rw [List.cons_append, read, if_neg (Ne.symm h.1), ih h.2, Option.map_map]
    rfl

/-- Replaces every occurrence of a character. -/
def replaced (c : Char) (other s : List Char) : List Char :=
  s.flatMap fun x => if x = c then other else [x]

/-- A text can be escaped in three rounds, one for each character, if the round for the
backslash comes first. -/
theorem flatMap_escape (s : List Char) :
    s.flatMap escape =
      replaced '\n' ['\\', 'n'] (replaced '"' ['\\', '"'] (replaced '\\' ['\\', '\\'] s)) := by
  unfold replaced
  rw [List.flatMap_assoc, List.flatMap_assoc]
  congr 1
  funext c
  unfold escape
  by_cases hbackslash : c = '\\'
  · subst hbackslash
    rfl
  · by_cases hquote : c = '"'
    · subst hquote
      rfl
    · simp [hbackslash, hquote]

end Quoted

section Settings

/-- The names of a style's settings neither open quotes nor end the line. -/
def PlainNames (settings : List (String × String)) : Prop :=
  ∀ p ∈ settings, '"' ∉ p.1.toList ∧ '\n' ∉ p.1.toList

instance (settings : List (String × String)) : Decidable (PlainNames settings) :=
  inferInstanceAs (Decidable (∀ p ∈ settings, _))

theorem toList_setting (name value : String) :
    (setting name value).toList = name.toList ++ ("=".toList ++ (quoted value).toList) := by
  rw [setting, String.toList_append, String.toList_append, List.append_assoc]

theorem lineFeed_notMem_setting {name : String} (h : '\n' ∉ name.toList) (value : String) :
    '\n' ∉ (setting name value).toList := by
  rw [toList_setting]
  exact List.not_mem_append h (List.not_mem_append (by decide) (lineFeed_notMem_quoted value))

theorem toList_settings (first : String) (rest : List String) :
    (joined " " (first :: rest)).toList = first.toList ++ rest.flatMap fun s => ' ' :: s.toList := by
  rw [joined, String.toList_ofList, List.map_cons, join_cons, List.flatMap_map]
  rfl

theorem read_setting {name : String} (h : '"' ∉ name.toList) (value : String) (rest : List Char) :
    read none (' ' :: ((setting name value).toList ++ rest)) =
      (read none rest).map (settingPieces name value ++ ·) := by
  have hmarks : '"' ∉ (" " ++ name ++ "=").toList := by
    simp [String.toList_append, h]
  have hline : ' ' :: ((setting name value).toList ++ rest) =
      (" " ++ name ++ "=").toList ++ ((quoted value).toList ++ rest) := by
    simp [toList_setting, String.toList_append]
  rw [hline, read_marks hmarks, read_quoted, Option.map_map]
  congr 1
  funext pieces
  simp [settingPieces]

theorem read_settings {settings : List (String × String)} (h : PlainNames settings)
    (rest : List Char) :
    read none ((settings.map fun (name, value) => setting name value).flatMap
        (fun s => ' ' :: s.toList) ++ rest) =
      (read none rest).map
        (settings.flatMap (fun (name, value) => settingPieces name value) ++ ·) := by
  induction settings with
  | nil => simp
  | cons p settings ih =>
    obtain ⟨name, value⟩ := p
    obtain ⟨hname, hrest⟩ := List.forall_mem_cons.mp h
    rw [List.map_cons, List.flatMap_cons, List.append_assoc, List.cons_append,
      read_setting hname.1, ih hrest, Option.map_map]
    congr 1
    funext pieces
    simp

theorem lineFeed_notMem_settings {settings : List (String × String)} (h : PlainNames settings) :
    '\n' ∉ (settings.map fun (name, value) => setting name value).flatMap
      fun s => ' ' :: s.toList := by
  intro hmem
  rw [List.flatMap_map, List.mem_flatMap] at hmem
  obtain ⟨p, hp, hmem⟩ := hmem
  rw [List.mem_cons] at hmem
  rcases hmem with heq | hmem
  · contradiction
  · exact lineFeed_notMem_setting (h p hp).2 p.2 hmem

/-- The settings of a line between brackets, of which the first is the label. -/
def brackets (label : String) (settings : List (String × String)) : List Char :=
  " [".toList ++ ((joined " " (setting "label" label ::
    settings.map fun (name, value) => setting name value)).toList ++ "]".toList)

theorem brackets_eq (label : String) (settings : List (String × String)) :
    brackets label settings = " [label=".toList ++ ((quoted label).toList ++
      ((settings.map fun (name, value) => setting name value).flatMap
        (fun s => ' ' :: s.toList) ++ "]".toList)) := by
  have hlabel : " [".toList ++ (setting "label" label).toList =
      " [label=".toList ++ (quoted label).toList := by
    rw [toList_setting]
    rfl
  rw [brackets, toList_settings, List.append_assoc, ← List.append_assoc, hlabel,
    List.append_assoc]

theorem read_brackets (label : String) {settings : List (String × String)}
    (h : PlainNames settings) :
    read none (brackets label settings) =
      some (marks " [label=" ++ .text label ::
        (settings.flatMap (fun (name, value) => settingPieces name value) ++ marks "]")) := by
  have hclose : read none "]".toList = some (marks "]") := rfl
  rw [brackets_eq, read_marks (by decide), read_quoted, read_settings h, hclose]
  rfl

theorem append_brackets_isLine {front : List Char} (hfront : '\n' ∉ front) (label : String)
    {settings : List (String × String)} (h : PlainNames settings) :
    '\n' ∉ front ++ brackets label settings ∧
      (front ++ brackets label settings).getLast? ≠ some '\r' := by
  rw [brackets_eq]
  constructor
  · exact List.not_mem_append hfront (List.not_mem_append (by decide)
      (List.not_mem_append (lineFeed_notMem_quoted label)
        (List.not_mem_append (lineFeed_notMem_settings h) (by decide))))
  · simp only [← List.append_assoc]
    rw [List.getLast?_append_of_ne_nil _ (by decide)]
    decide

end Settings

section Styles

/-- What the settings of a style consist of when the label has been drawn from it. -/
def settingsOf (styles : Styles) (item : Item) : List (String × String) :=
  ((styleOf styles item).erase "textwrap").entries

theorem entries_standard :
    Style.standard.entries =
      [(Style.defaultName, .ofList [("shape", "box"), ("textwrap", "16")]),
        (Style.unresolvedName, .ofList
          [("shape", "box"), ("style", "filled"), ("color", "gray80"), ("fillcolor", "white"),
            ("fontcolor", "gray30")])] := rfl

theorem get?_styleOf (styles : Styles) (item : Item) (name : String) :
    (styleOf styles item).get? name =
      (((item.attributes.get? "category").bind styles.get?).bind (·.get? name)).or
        ((styles.get? (if item.isDeclared then Style.defaultName else Style.unresolvedName)).bind
          (·.get? name)) := by
  have hbase : ((styles.get? (if item.isDeclared then Style.defaultName else
      Style.unresolvedName)).getD ∅).get? name = (styles.get? (if item.isDeclared then
        Style.defaultName else Style.unresolvedName)).bind (·.get? name) := by
    cases styles.get? (if item.isDeclared then Style.defaultName else Style.unresolvedName) <;> rfl
  unfold styleOf
  cases hoverlay : (item.attributes.get? "category").bind styles.get? with
  | none =>
    simp only [hbase]
    rfl
  | some overlay => simp only [SortedMap.get?_merge, hbase, Option.bind_some]

/-- The names of settings come from the styles. -/
theorem plainNames_settingsOf {styles : Styles}
    (h : ∀ style ∈ styles.values, PlainNames style.entries) (item : Item) :
    PlainNames (settingsOf styles item) := by
  have hstyle {key name value : String}
      (hget : (styles.get? key).bind (·.get? name) = some value) :
      '"' ∉ name.toList ∧ '\n' ∉ name.toList := by
    obtain ⟨style, hstyle, hvalue⟩ := Option.bind_eq_some_iff.mp hget
    exact h style (SortedMap.mem_values.mpr ⟨key, hstyle⟩) (name, value)
      (SortedMap.mem_entries.mpr hvalue)
  intro p hp
  obtain ⟨name, value⟩ := p
  rw [settingsOf, SortedMap.mem_entries, SortedMap.get?_erase] at hp
  split at hp
  · contradiction
  · rw [get?_styleOf, Option.or_eq_some_iff] at hp
    rcases hp with hoverlay | ⟨-, hbase⟩
    · rw [Option.bind_assoc] at hoverlay
      obtain ⟨category, -, hget⟩ := Option.bind_eq_some_iff.mp hoverlay
      exact hstyle hget
    · exact hstyle hbase

theorem plainNames_standard : ∀ style ∈ Style.standard.values, PlainNames style.entries := by
  decide

/-- With the built-in styles the labels of declared items are wrapped at sixteen characters, and
so are those of the category with the name of their style. -/
theorem wrapWidth_standard (item : Item) :
    wrapWidth (styleOf Style.standard item) =
      if item.isDeclared ∨ item.attributes.get? "category" = some Style.defaultName then some 16
      else none := by
  have hstyle (key : String) : (Style.standard.get? key).bind (·.get? "textwrap") =
      if key = Style.defaultName then some "16" else none := by
    rw [SortedMap.get?, entries_standard, SortedMap.find?]
    by_cases hdefault : key = Style.defaultName
    · subst hdefault
      rfl
    · rw [if_neg (Ne.symm hdefault), if_neg hdefault, SortedMap.find?]
      split <;> rfl
  have hwidth : (some "16").bind (fun w => Numeral.bounded? (twoTo 64 - 1) w.toList) = some 16 := by
    decide +kernel
  have hget : (styleOf Style.standard item).get? "textwrap" =
      if item.isDeclared ∨ item.attributes.get? "category" = some Style.defaultName then some "16"
      else none := by
    rw [get?_styleOf, hstyle, Option.bind_assoc]
    cases item.attributes.get? "category" with
    | none => cases item.isDeclared <;> rfl
    | some category =>
      rw [Option.bind_some, hstyle]
      by_cases hcategory : category = Style.defaultName
      · simp [hcategory]
      · cases hdeclared : item.isDeclared with
        | true => simp [hcategory]
        | false =>
          have hother : Style.unresolvedName ≠ Style.defaultName := by decide
          simp [hcategory, hother]
  unfold wrapWidth
  rw [hget]
  by_cases hwrapped :
      item.isDeclared ∨ item.attributes.get? "category" = some Style.defaultName
  · rw [if_pos hwrapped, if_pos hwrapped, hwidth]
    rfl
  · rw [if_neg hwrapped, if_neg hwrapped]
    rfl

/-- The title as it is shown with the built-in styles. -/
def standardLabel (item : Item) : String :=
  if item.isDeclared ∨ item.attributes.get? "category" = some Style.defaultName then
    String.ofList (Text.join ['\n'] (wrap 16 item.title.toList))
  else item.title

theorem label_standard (item : Item) :
    label (styleOf Style.standard item) item.title = standardLabel item := by
  unfold label standardLabel
  rw [wrapWidth_standard]
  by_cases hwrapped :
      item.isDeclared ∨ item.attributes.get? "category" = some Style.defaultName
  · rw [if_pos hwrapped, if_pos hwrapped]
  · rw [if_neg hwrapped, if_neg hwrapped]

end Styles

section Lines

theorem toList_node (styles : Styles) (item : Item) :
    (node styles item).toList = "    ".toList ++ ((quoted item.tag).toList ++
      brackets (label (styleOf styles item) item.title) (settingsOf styles item)) := by
  simp only [node, brackets, String.toList_append, List.append_assoc]
  rfl

/-- An edge has one more setting than its label, if it has no direction. -/
def edgeSettings (e : Graph.Edge) : List (String × String) :=
  if e.direction = .symmetric then [("dir", "none")] else []

theorem toList_edge (e : Graph.Edge) :
    (edge e).toList = "    ".toList ++ ((quoted e.source).toList ++ (" -> ".toList ++
      ((quoted e.target).toList ++ brackets e.relationship (edgeSettings e)))) := by
  have hsettings : (if e.direction = .symmetric then [setting "dir" "none"] else []) =
      (edgeSettings e).map fun (name, value) => setting name value := by
    unfold edgeSettings
    split <;> rfl
  simp only [edge, brackets, hsettings, String.toList_append, List.append_assoc]

theorem plainNames_edgeSettings (e : Graph.Edge) : PlainNames (edgeSettings e) := by
  unfold edgeSettings
  split <;> decide

variable {styles : Styles}

theorem read_node (h : ∀ style ∈ styles.values, PlainNames style.entries) (item : Item) :
    read none (node styles item).toList =
      some (nodePieces item (label (styleOf styles item) item.title) (settingsOf styles item)) := by
  rw [toList_node, read_marks (by decide), read_quoted, read_brackets _ (plainNames_settingsOf h item)]
  rfl

theorem read_edge (e : Graph.Edge) : read none (edge e).toList = some (edgePieces e) := by
  rw [toList_edge, read_marks (by decide), read_quoted, read_marks (by decide), read_quoted,
    read_brackets _ (plainNames_edgeSettings e)]
  unfold edgePieces edgeSettings
  split <;> rfl

theorem node_isLine (h : ∀ style ∈ styles.values, PlainNames style.entries) (item : Item) :
    '\n' ∉ (node styles item).toList ∧ (node styles item).toList.getLast? ≠ some '\r' := by
  rw [toList_node, ← List.append_assoc]
  exact append_brackets_isLine (List.not_mem_append (by decide) (lineFeed_notMem_quoted _)) _
    (plainNames_settingsOf h item)

theorem edge_isLine (e : Graph.Edge) :
    '\n' ∉ (edge e).toList ∧ (edge e).toList.getLast? ≠ some '\r' := by
  rw [toList_edge]
  simp only [← List.append_assoc]
  refine append_brackets_isLine ?_ _ (plainNames_edgeSettings e)
  simp only [List.append_assoc]
  exact List.not_mem_append (by decide) (List.not_mem_append (lineFeed_notMem_quoted _)
    (List.not_mem_append (by decide) (lineFeed_notMem_quoted _)))

theorem header_isLine : ∀ line ∈ header,
    '\n' ∉ line.toList ∧ line.toList.getLast? ≠ some '\r' := by
  decide

/-- The lines of the text are the lines that were written, and no others. -/
theorem lines_ofGraph (h : ∀ style ∈ styles.values, PlainNames style.entries) (g : Graph) :
    lines (ofGraph styles g).toList = header.map String.toList ++
      g.traceables.map (fun item => (node styles item).toList) ++
        g.edges.map (fun e => (edge e).toList) ++ [['\x7d']] := by
  have htext : (ofGraph styles g).toList = unlines ((header ++ g.traceables.map (node styles) ++
      g.edges.map edge ++ ["\x7d"]).map String.toList) := by
    rw [ofGraph, toList_ofLines]
  rw [htext, lines_unlines]
  · simp only [List.map_append, List.map_map, List.map_singleton]
    rfl
  · intro line hline
    simp only [List.map_append, List.mem_append, List.mem_map, List.mem_singleton] at hline
    rcases hline with ((⟨s, hs, rfl⟩ | ⟨_, ⟨item, -, rfl⟩, rfl⟩) | ⟨_, ⟨e, -, rfl⟩, rfl⟩) | hclose
    · exact header_isLine s hs
    · exact node_isLine h item
    · exact edge_isLine e
    · obtain ⟨_, rfl, rfl⟩ := hclose
      decide

end Lines

/-- With the built-in styles a graph is written in five lines, a line for each item, a line for
each edge and a closing line. Read with the escapes undone, the line of an item gives its tag,
its label and settings of the styles, and the line of an edge its ends, its relationship and
`dir` exactly if it has no direction. The escapes are three replacements one after the other,
and labels are the titles, wrapped where the style says so. -/
theorem graph_lines_read_back (g : Graph) :
    ∃ output, View.render Style.standard "dot" (.graph g) = .ok output ∧
      lines output.toList = header.map String.toList ++
        g.traceables.map (fun item => (node Style.standard item).toList) ++
          g.edges.map (fun e => (edge e).toList) ++ [['\x7d']] ∧
      header.length = 5 ∧
      (∀ item, read none (node Style.standard item).toList =
        some (nodePieces item (standardLabel item) (settingsOf Style.standard item))) ∧
      (∀ e, read none (edge e).toList = some (edgePieces e)) ∧
      ∀ s, (quoted s).toList = '"' :: (replaced '\n' ['\\', 'n'] (replaced '"' ['\\', '"']
        (replaced '\\' ['\\', '\\'] s.toList)) ++ ['"']) := by
  refine ⟨ofGraph Style.standard g, rfl, lines_ofGraph plainNames_standard g, rfl,
    fun item => ?_, read_edge, fun s => ?_⟩
  · rw [read_node plainNames_standard, label_standard]
  · rw [toList_quoted, flatMap_escape]

/-- Quotes, a backslash and a line feed in a tag, and an edge called like the setting of another. -/
example :
    read none (node Style.standard (.placeholder "a\"]\\\n")).toList =
        some (nodePieces (.placeholder "a\"]\\\n") "a\"]\\\n"
          [("color", "gray80"), ("fillcolor", "white"), ("fontcolor", "gray30"), ("shape", "box"),
            ("style", "filled")]) ∧
      (edge ⟨"a", "b", "\" dir=\"none", .forward⟩ =
        "    \"a\" -> \"b\" [label=\"\\\" dir=\\\"none\"]") := by
  decide +kernel

end Traceability.View.Dot
