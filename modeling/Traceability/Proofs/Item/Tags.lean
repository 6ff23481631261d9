import Traceability.Item
import Traceability.Proofs.Text.Joined
import Traceability.Proofs.Text.Lines
import Traceability.Proofs.Text.Trimmed

/-!
The tags in the value of a relationship attribute. Between commas every text that is not blank
counts, trimmed, so a text without comma is one tag, and no value has a tag with a comma. Values
that are joined with commas have the tags of each of them, one after the other.
-/

namespace Traceability

theorem mem_splitTags {value tag : String} :
    tag ∈ splitTags value ↔ ∃ piece ∈ Text.split (· == ',') value.toList,
      Text.trim piece = tag.toList ∧ tag.toList ≠ [] := by
  simp only [splitTags, List.mem_filterMap, List.mem_map, Option.ite_none_left_eq_some,
    Option.some.injEq, List.isEmpty_iff]
  constructor
  · rintro ⟨_, ⟨piece, hpiece, rfl⟩, hne, rfl⟩
    rw [String.toList_ofList]
    exact ⟨piece, hpiece, rfl, hne⟩
  · rintro ⟨piece, hpiece, htrim, hne⟩
    rw [← htrim] at hne
    refine ⟨_, ⟨piece, hpiece, rfl⟩, hne, ?_⟩
    rw [htrim, String.ofList_toList]

theorem comma_notMem_of_mem_splitTags {value tag : String} (h : tag ∈ splitTags value) :
    ',' ∉ tag.toList := by
  obtain ⟨piece, hpiece, htrim, -⟩ := mem_splitTags.mp h
  intro hcomma
  rw [← htrim] at hcomma
  have hnot := Text.notMem_of_mem_split hpiece ',' (Text.mem_of_mem_trim hcomma)
  contradiction

theorem splitTags_of_comma_notMem {value : String} (hblank : Text.isBlankText value = false)
    (hcomma : ',' ∉ value.toList) : splitTags value = [Text.trimmed value] := by
  have hpieces : Text.split (· == ',') value.toList = [value.toList] := by
    apply Text.split_piece
    intro c hc
    exact beq_eq_false_iff_ne.mpr (ne_of_mem_of_not_mem hc hcomma)
  have hne : Text.trim value.toList ≠ [] := by
    rw [Ne, Text.trim_eq_nil_iff, ← Text.isBlankText, hblank]
    exact Bool.false_ne_true
  simp [splitTags, hpieces, hne, Text.trimmed]

/-- Trimming takes no comma away. -/
theorem comma_mem_trimmed {value : String} (h : ',' ∈ value.toList) :
    ',' ∈ (Text.trimmed value).toList := by
  obtain ⟨lead, trail, hsplit, hlead, htrail⟩ := Text.exists_trim value.toList
  rw [Text.trimmed, String.toList_ofList]
  rw [hsplit, List.mem_append, List.mem_append] at h
  rcases h with (h | h) | h
  · exact absurd (hlead ',' h) (by decide)
  · exact h
  · exact absurd (htrail ',' h) (by decide)

/-- A text that is read as one tag, which is the text itself. -/
structure IsSingleTag (tag : String) : Prop where
  trimmed : Text.trimmed tag = tag
  ne_empty : tag ≠ ""
  comma_notMem : ',' ∉ tag.toList

instance (tag : String) : Decidable (IsSingleTag tag) :=
  decidable_of_iff (Text.trimmed tag = tag ∧ tag ≠ "" ∧ ',' ∉ tag.toList)
    ⟨fun ⟨htrimmed, hempty, hcomma⟩ => ⟨htrimmed, hempty, hcomma⟩,
      fun h => ⟨h.trimmed, h.ne_empty, h.comma_notMem⟩⟩

theorem isSingleTag_of_mem_splitTags {value tag : String} (h : tag ∈ splitTags value) :
    IsSingleTag tag where
  trimmed := by
    obtain ⟨piece, -, htrim, -⟩ := mem_splitTags.mp h
    rw [Text.trimmed, ← htrim, Text.trim_trim, htrim, String.ofList_toList]
  ne_empty := by
    obtain ⟨-, -, -, hne⟩ := mem_splitTags.mp h
    rintro rfl
    exact hne rfl
  comma_notMem := comma_notMem_of_mem_splitTags h

theorem IsSingleTag.splitTags_eq {tag : String} (h : IsSingleTag tag) : splitTags tag = [tag] := by
  have hblank : Text.isBlankText tag = false := by
    rw [Text.isBlankText, ← Bool.not_eq_true, ← Text.trim_eq_nil_iff]
    intro hnil
    apply h.ne_empty
    rw [← h.trimmed, Text.trimmed, hnil]
  rw [splitTags_of_comma_notMem hblank h.comma_notMem, h.trimmed]

section Joined

theorem splitTags_append_comma (a b : String) :
    splitTags (a ++ "," ++ b) = splitTags a ++ splitTags b := by
  have hsplit : Text.split (· == ',') (a ++ "," ++ b).toList =
      Text.split (· == ',') a.toList ++ Text.split (· == ',') b.toList := by
    rw [String.toList_append, String.toList_append, List.append_assoc]
    exact Text.split_append_separator rfl a.toList b.toList
  rw [splitTags, hsplit, List.map_append, List.filterMap_append, ← splitTags, ← splitTags]

/-- A space before a value stands before its first piece, where it is trimmed away. -/
theorem splitTags_space_append (value : String) : splitTags (" " ++ value) = splitTags value := by
  obtain ⟨piece, pieces, hpieces⟩ :=
    List.exists_cons_of_ne_nil (Text.split_ne_nil (· == ',') value.toList)
  have hsplit : Text.split (· == ',') (" " ++ value).toList = (' ' :: piece) :: pieces := by
    rw [String.toList_append]
    change Text.split (· == ',') (' ' :: value.toList) = _
    rw [Text.split, if_neg (by decide), hpieces]
  rw [splitTags, splitTags, hsplit, hpieces, List.map_cons, List.map_cons, Text.trim_space_cons]

theorem splitTags_append_commaSpace (a b : String) :
    splitTags (a ++ ", " ++ b) = splitTags a ++ splitTags b := by
  have hcomma : ", " = "," ++ " " := rfl
  rw [hcomma, ← String.append_assoc, String.append_assoc, splitTags_append_comma,
    splitTags_space_append]

theorem splitTags_joined (values : List String) :
    splitTags (Text.joined ", " values) = values.flatMap splitTags := by
  induction values with
  | nil => rfl
  | cons value rest ih =>
    cases rest with
    | nil => rw [Text.joined_singleton, List.flatMap_singleton]
    | cons next rest =>
      rw [Text.joined_cons_cons, splitTags_append_commaSpace, ih, ← List.flatMap_cons]

/-- Values are the tags that they are read as together only if each of them is a tag. -/
theorem flatMap_splitTags_eq_self_iff {values : List String} :
    values.flatMap splitTags = values ↔ ∀ value ∈ values, IsSingleTag value := by
  constructor
  · intro h value hvalue
    rw [← h] at hvalue
    obtain ⟨_, -, hmem⟩ := List.mem_flatMap.mp hvalue
    exact isSingleTag_of_mem_splitTags hmem
  · intro h
    induction values with
    | nil => rfl
    | cons value rest ih =>
      rw [List.forall_mem_cons] at h
      rw [List.flatMap_cons, h.1.splitTags_eq, ih h.2, List.singleton_append]

/-- Blanks inside a tag belong to it. -/
example : IsSingleTag "A 1" ∧ ¬ IsSingleTag "A, 1" ∧ ¬ IsSingleTag "A " := by decide +kernel

end Joined

end Traceability
