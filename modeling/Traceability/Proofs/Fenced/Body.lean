import Mathlib.Data.List.TakeWhile
import Traceability.Document.Fenced
import Traceability.Proofs.Text.Trimmed

/-!
The lines inside a block. A block is read unless one of its lines is neither blank nor a comment
and has no colon, and then the fault names the first such line by its number in the document.
-/

namespace Traceability.Document.Fenced

open Text

/-- A line that is neither blank nor a comment and has no colon. -/
def IsFaulty (line : List Char) : Prop :=
  (∃ c ∈ line, isBlank c = false) ∧ (trimStart line).head? ≠ some '#' ∧ ':' ∉ line

instance (line : List Char) : Decidable (IsFaulty line) :=
  inferInstanceAs (Decidable (_ ∧ _ ∧ _))

/-- The first element of a kind is the first element of the list, or comes behind it. -/
theorem exists_first_cons_iff {α : Type} {p : α → Prop} {q : List α → α → Prop} {a : α}
    {l : List α} :
    (∃ front x behind, a :: l = front ++ x :: behind ∧ (∀ y ∈ front, p y) ∧ q front x) ↔
      q [] a ∨ p a ∧
        ∃ front x behind, l = front ++ x :: behind ∧ (∀ y ∈ front, p y) ∧ q (a :: front) x := by
  constructor
  · intro h
    obtain ⟨front, x, behind, hlist, hfront, hx⟩ := h
    cases front with
    | nil =>
      cases hlist
      exact .inl hx
    | cons y front =>
      cases hlist
      obtain ⟨ha, hfront⟩ := List.forall_mem_cons.mp hfront
      exact .inr ⟨ha, front, x, behind, rfl, hfront, hx⟩
  · intro h
    rcases h with ha | ⟨ha, front, x, behind, rfl, hfront, hx⟩
    · exact ⟨[], a, l, rfl, List.forall_mem_nil _, ha⟩
    · exact ⟨a :: front, x, behind, rfl, List.forall_mem_cons.mpr ⟨ha, hfront⟩, hx⟩

section Line

variable {line : List Char}

theorem mem_trim_iff {c : Char} (hc : isBlank c = false) : c ∈ trim line ↔ c ∈ line := by
  refine ⟨mem_of_mem_trim, fun hmem => ?_⟩
  obtain ⟨lead, trail, hsplit, hlead, htrail⟩ := exists_trim line
  rw [hsplit, List.mem_append, List.mem_append] at hmem
  rcases hmem with (hmem | hmem) | hmem
  · rw [hlead c hmem] at hc
    contradiction
  · exact hmem
  · rw [htrail c hmem] at hc
    contradiction

theorem trim_ne_nil_iff : trim line ≠ [] ↔ ∃ c ∈ line, isBlank c = false := by
  rw [Ne, trim_eq_nil_iff, List.all_eq_true]
  simp

theorem head?_trim_eq (h : trim line ≠ []) : (trim line).head? = (trimStart line).head? := by
  obtain ⟨trail, hend, -⟩ := exists_trimEnd (trimStart line)
  obtain ⟨c, more, hcons⟩ := List.exists_cons_of_ne_nil h
  rw [hend, ← trim, hcons]
  rfl

theorem isSkipped_trim_eq_false_iff :
    isSkipped (trim line) = false ↔
      (∃ c ∈ line, isBlank c = false) ∧ (trimStart line).head? ≠ some '#' := by
  rw [isSkipped, Bool.or_eq_false_iff, List.isEmpty_eq_false_iff, beq_eq_false_iff_ne,
    ← trim_ne_nil_iff]
  constructor
  · intro h
    exact ⟨h.1, head?_trim_eq h.1 ▸ h.2⟩
  · intro h
    exact ⟨h.1, (head?_trim_eq h.1).symm ▸ h.2⟩

theorem pair?_eq_none_iff {s : List Char} : pair? s = none ↔ ':' ∉ s := by
  have hdrop : s.dropWhile (· != ':') = [] ↔ ':' ∉ s := by
    rw [List.dropWhile_eq_nil_iff]
    constructor
    · intro h hmem
      simpa using h ':' hmem
    · intro h c hc
      rw [bne_iff_ne]
      rintro rfl
      exact h hc
  rw [← hdrop]
  unfold pair?
  split
  · rename_i hnil
    simp [hnil]
  · rename_i hcons
    simp [hcons]

end Line

section Attributes

variable {document tag : String} {line : List Char} {rest : List (List Char)}

theorem attributes_of_faulty (h : IsFaulty line) (number : Nat) (found : Attributes) :
    attributes document tag number found (line :: rest) =
      .error (.blockLine ⟨document, number⟩ tag (String.ofList (trim line))) := by
  have hkept : isSkipped (trim line) = false := isSkipped_trim_eq_false_iff.mpr ⟨h.1, h.2.1⟩
  have hpair : pair? (trim line) = none := by
    rw [pair?_eq_none_iff, mem_trim_iff (by decide)]
    exact h.2.2
  rw [attributes]
  simp [hkept, hpair]

/-- A line that is not faulty is left behind, whatever it adds. -/
theorem exists_attributes_of_not_faulty (h : ¬ IsFaulty line) (number : Nat) (found : Attributes) :
    ∃ more, attributes document tag number found (line :: rest) =
      attributes document tag (number + 1) more rest := by
  rw [attributes]
  cases hskipped : isSkipped (trim line) with
  | true => exact ⟨found, by simp⟩
  | false =>
    cases hpair : pair? (trim line) with
    | none =>
      obtain ⟨hkept, hcomment⟩ := isSkipped_trim_eq_false_iff.mp hskipped
      rw [pair?_eq_none_iff, mem_trim_iff (by decide)] at hpair
      exact absurd ⟨hkept, hcomment, hpair⟩ h
    | some pair => exact ⟨found.insert pair.1 pair.2, by simp⟩

/-- The fault in a block is that of its first faulty line. -/
theorem attributes_eq_error_iff {lines : List (List Char)} {number : Nat} {found : Attributes}
    {fault : Fault} :
    attributes document tag number found lines = .error fault ↔
      ∃ above line below, lines = above ++ line :: below ∧
        (∀ other ∈ above, ¬ IsFaulty other) ∧ IsFaulty line ∧
        fault = .blockLine ⟨document, number + above.length⟩ tag (String.ofList (trim line)) := by
  induction lines generalizing number found with
  | nil => simp [attributes]
  | cons first rest ih =>
    refine Iff.trans ?_ exists_first_cons_iff.symm
    by_cases hfirst : IsFaulty first
    · rw [attributes_of_faulty hfirst]
      simp [hfirst, eq_comm]
    · obtain ⟨more, hmore⟩ : ∃ more, attributes document tag number found (first :: rest) =
          attributes document tag (number + 1) more rest :=
        exists_attributes_of_not_faulty hfirst number found
      rw [hmore, ih]
      simp [hfirst, Nat.add_assoc, Nat.add_comm 1]

theorem exists_attributes_error_iff {lines : List (List Char)} {number : Nat}
    {found : Attributes} :
    (∃ fault, attributes document tag number found lines = .error fault) ↔
      ∃ line ∈ lines, IsFaulty line := by
  simp only [attributes_eq_error_iff]
  constructor
  · intro h
    obtain ⟨-, above, line, below, rfl, -, hline, -⟩ := h
    exact ⟨line, by simp, hline⟩
  · intro h
    cases hfirst : lines.find? (fun line => decide (IsFaulty line)) with
    | none =>
      obtain ⟨line, hmem, hline⟩ := h
      exact absurd hline (by simpa using List.find?_eq_none.mp hfirst line hmem)
    | some line =>
      obtain ⟨hline, above, below, hlines, habove⟩ := List.find?_eq_some_iff_append.mp hfirst
      exact ⟨_, above, line, below, hlines, by simpa using habove, of_decide_eq_true hline, rfl⟩

end Attributes

section Block

/-- The info of a block names a tag. -/
def Names (f : Markdown.Fence) (tag : String) : Prop :=
  words (Markdown.Entity.unescaped f.info.length f.info) = ["traceable".toList, tag.toList]

variable {f : Markdown.Fence} {tag : String}

theorem declaration?_of_names (document : String) (h : Names f tag) :
    declaration? document f =
      (attributes document tag (f.number + 1) ∅ f.lines).map fun found =>
        some ⟨tag, found, f.number⟩ := by
  have hwords : words (Markdown.Entity.unescaped f.info.length f.info) =
      ["traceable".toList, tag.toList] := h
  unfold declaration?
  simp [hwords]

theorem declaration?_eq_error_iff {document : String} (h : Names f tag) {fault : Fault} :
    declaration? document f = .error fault ↔
      attributes document tag (f.number + 1) ∅ f.lines = .error fault := by
  rw [declaration?_of_names document h]
  cases attributes document tag (f.number + 1) ∅ f.lines <;> simp [Except.map]

theorem exists_declaration?_error_iff {document : String} (h : Names f tag) :
    (∃ fault, declaration? document f = .error fault) ↔ ∃ line ∈ f.lines, IsFaulty line := by
  simp only [declaration?_eq_error_iff h, exists_attributes_error_iff]

theorem exists_ok_iff {α : Type} {result : Except Fault α} :
    (∃ found, result = .ok found) ↔ ¬ ∃ fault, result = .error fault := by
  cases result <;> simp

theorem exists_declaration?_ok_iff {document : String} (h : Names f tag) :
    (∃ found, declaration? document f = .ok found) ↔ ∀ line ∈ f.lines, ¬ IsFaulty line := by
  rw [exists_ok_iff, exists_declaration?_error_iff h]
  simp

/-- Blocks are read one after the other up to the first fault. -/
theorem readAll_eq_error_iff {document : String} {fs : List Markdown.Fence} {fault : Fault} :
    readAll document fs = .error fault ↔
      ∃ front f behind, fs = front ++ f :: behind ∧
        (∀ g ∈ front, ∃ found, declaration? document g = .ok found) ∧
        declaration? document f = .error fault := by
  induction fs with
  | nil => simp [readAll]
  | cons first fs ih =>
    refine Iff.trans ?_ exists_first_cons_iff.symm
    rw [readAll, ← ih]
    cases declaration? document first with
    | error firstFault => simp
    | ok found => cases readAll document fs <;> simp [Except.map]

theorem exists_readAll_ok_iff {document : String} {fs : List Markdown.Fence} :
    (∃ ds, readAll document fs = .ok ds) ↔
      ∀ f ∈ fs, ∃ found, declaration? document f = .ok found := by
  induction fs with
  | nil => simp [readAll]
  | cons f fs ih =>
    rw [readAll, List.forall_mem_cons, ← ih]
    cases declaration? document f with
    | error fault => simp
    | ok found => cases readAll document fs <;> simp [Except.map]

end Block

end Traceability.Document.Fenced
