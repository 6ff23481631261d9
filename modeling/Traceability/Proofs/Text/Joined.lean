import Traceability.Text.Blank

/-!
Texts that are joined with a separator are the pieces that a cut at the separator
gives back, provided that there is a text and none of them contains the separator.
-/

namespace Traceability.Text

variable {separates : Char → Bool} {c : Char}

theorem split_piece {piece : List Char} (h : ∀ x ∈ piece, separates x = false) :
    split separates piece = [piece] := by
  induction piece with
  | nil => rfl
  | cons x piece ih =>
    rw [List.forall_mem_cons] at h
    simp [split, h.1, ih h.2]

theorem split_append {piece : List Char} (h : ∀ x ∈ piece, separates x = false)
    (hc : separates c = true) (rest : List Char) :
    split separates (piece ++ c :: rest) = piece :: split separates rest := by
  induction piece with
  | nil => simp [split, hc]
  | cons x piece ih =>
    rw [List.forall_mem_cons] at h
    simp [split, h.1, ih h.2]

theorem split_join (hc : separates c = true) {pieces : List (List Char)} (hne : pieces ≠ [])
    (h : ∀ piece ∈ pieces, ∀ x ∈ piece, separates x = false) :
    split separates (join [c] pieces) = pieces := by
  induction pieces with
  | nil => contradiction
  | cons piece rest ih =>
    rw [List.forall_mem_cons] at h
    cases rest with
    | nil => exact split_piece h.1
    | cons next rest =>
      rw [join, List.append_assoc, List.singleton_append, split_append h.1 hc,
        ih (by simp) h.2]

/-- Behind the first text the separator stands before each of the others. -/
theorem join_cons (separator first : List Char) (rest : List (List Char)) :
    join separator (first :: rest) = first ++ rest.flatMap (separator ++ ·) := by
  induction rest generalizing first with
  | nil => simp [join]
  | cons next rest ih => rw [join, ih, List.flatMap_cons, List.append_assoc, List.append_assoc]

theorem join_append {pieces : List (List Char)} (hne : pieces ≠ []) (separator : List Char)
    (more : List (List Char)) :
    join separator (pieces ++ more) = join separator pieces ++ more.flatMap (separator ++ ·) := by
  obtain ⟨first, rest, rfl⟩ := List.exists_cons_of_ne_nil hne
  rw [List.cons_append, join_cons, join_cons, List.flatMap_append, List.append_assoc]

/-- A join has no characters but those of its pieces and the separator. -/
theorem mem_join {pieces : List (List Char)} {separator : List Char} {x : Char}
    (h : x ∈ join separator pieces) : x ∈ separator ∨ ∃ piece ∈ pieces, x ∈ piece := by
  induction pieces with
  | nil => exact absurd h List.not_mem_nil
  | cons piece rest ih =>
    cases rest with
    | nil => exact Or.inr ⟨piece, List.mem_cons_self, h⟩
    | cons next rest =>
      rw [join, List.mem_append, List.mem_append] at h
      rcases h with (h | h) | h
      · exact Or.inr ⟨piece, List.mem_cons_self, h⟩
      · exact Or.inl h
      · rcases ih h with hs | ⟨other, hother, hx⟩
        · exact Or.inl hs
        · exact Or.inr ⟨other, List.mem_cons_of_mem _ hother, hx⟩

theorem joined_singleton (separator text : String) : joined separator [text] = text := by
  rw [joined, List.map_singleton, join, String.ofList_toList]

theorem joined_cons_cons (separator first next : String) (rest : List String) :
    joined separator (first :: next :: rest) =
      first ++ separator ++ joined separator (next :: rest) := by
  rw [joined, joined, List.map_cons, List.map_cons, join, String.ofList_append,
    String.ofList_append, String.ofList_toList, String.ofList_toList]

end Traceability.Text
