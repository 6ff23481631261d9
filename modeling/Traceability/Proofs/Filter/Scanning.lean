import Traceability.Proofs.Filter.NextToken

/-!
The scanner reads a text from place to place. Texts that a blank parts have the tokens of
the one and then of the other. Blanks around a text add nothing but separators, and a text
that starts further behind has the same tokens at later places.
-/

namespace Traceability.Filter

open Text

theorem byteLength_append (s t : List Char) :
    byteLength (s ++ t) = byteLength s + byteLength t := by
  induction s with
  | nil => simp [byteLength]
  | cons c s ih => simp [byteLength, ih, Nat.add_assoc]

theorem utf8Size_of_isSeparator {c : Char} (hc : isSeparator c = true) : c.utf8Size = 1 := by
  rw [isSeparator, Bool.or_eq_true, beq_iff_eq, beq_iff_eq] at hc
  rcases hc with rfl | rfl
  · rfl
  · rfl

theorem tokenize_eq_ok {s : List Char} {tokens : List Lexeme}
    (h : (tokenize s).toOption = some tokens) : tokenize s = .ok tokens := by
  cases hs : tokenize s with
  | error e =>
    rw [hs] at h
    contradiction
  | ok found =>
    rw [hs] at h
    exact congrArg Except.ok (Option.some.inj h)

theorem exists_of_map_eq_ok {ε α β : Type} {x : Except ε α} {f : α → β} {y : β}
    (h : x.map f = .ok y) : ∃ a, x = .ok a ∧ f a = y := by
  cases x with
  | error e => contradiction
  | ok a => exact ⟨a, rfl, Except.ok.inj h⟩

theorem scan_nil (offset : Nat) : scan offset [] = .ok [] := by rw [scan]

theorem scan_separator {c : Char} (hc : isSeparator c = true) (offset : Nat) (rest : List Char) :
    scan offset (c :: rest) =
      (scan (offset + 1) rest).map (⟨.separator, offset, [c]⟩ :: ·) := by
  rw [scan, if_pos hc]

theorem scan_blank {c : Char} (hc : isSeparator c = false) (hb : isBlank c = true) (offset : Nat)
    (rest : List Char) : scan offset (c :: rest) = scan (offset + c.utf8Size) rest := by
  rw [scan, if_neg (by simp [hc]), if_pos hb]

theorem scan_fault {c : Char} {rest : List Char} {fault : Fault} (hc : isSeparator c = false)
    (hb : isBlank c = false) (h : nextToken c rest = .error fault) (offset : Nat) :
    scan offset (c :: rest) = .error (offset, fault) := by
  rw [scan, if_neg (by simp [hc]), if_neg (by simp [hb])]
  unfold nextToken at h
  cases htoken : tokenAt c rest with
  | error found =>
    simp only [htoken, Except.error.injEq] at h
    simp only [h]
  | ok found =>
    obtain ⟨token, extra⟩ := found
    simp only [htoken] at h ⊢
    cases hapart : checkApart token (c :: rest.take extra) (rest.drop extra) with
    | error apart =>
      simp only [hapart, Except.error.injEq] at h
      simp only [h]
    | ok =>
      simp only [hapart] at h
      contradiction

theorem scan_token {c : Char} {rest : List Char} {token : Token} {extra : Nat}
    (hc : isSeparator c = false) (hb : isBlank c = false)
    (h : nextToken c rest = .ok (token, extra)) (offset : Nat) :
    scan offset (c :: rest) =
      (scan (offset + byteLength (c :: rest.take extra)) (rest.drop extra)).map
        (⟨token, offset, c :: rest.take extra⟩ :: ·) := by
  obtain ⟨htoken, hapart⟩ := nextToken_eq_ok_iff.mp h
  rw [scan, if_neg (by simp [hc]), if_neg (by simp [hb]), htoken]
  simp only
  rw [hapart]

/-- A text is scanned token by token, over separators and blanks. -/
theorem scan_induction {motive : Nat → List Char → Prop} (nil : ∀ offset, motive offset [])
    (separator : ∀ offset c rest, isSeparator c = true → motive (offset + 1) rest →
      motive offset (c :: rest))
    (blank : ∀ offset c rest, isSeparator c = false → isBlank c = true →
      motive (offset + c.utf8Size) rest → motive offset (c :: rest))
    (fault : ∀ offset c rest found, isSeparator c = false → isBlank c = false →
      nextToken c rest = .error found → motive offset (c :: rest))
    (token : ∀ offset c rest found extra, isSeparator c = false → isBlank c = false →
      nextToken c rest = .ok (found, extra) →
      motive (offset + byteLength (c :: rest.take extra)) (rest.drop extra) →
      motive offset (c :: rest))
    (offset : Nat) (s : List Char) : motive offset s := by
  induction offset, s using scan.induct with
  | case1 offset => exact nil offset
  | case2 offset c rest hc ih => exact separator offset c rest hc ih
  | case3 offset c rest hc hb ih => exact blank offset c rest (Bool.eq_false_iff.mpr hc) hb ih
  | case4 offset c rest hc hb found htoken =>
    refine fault offset c rest found (Bool.eq_false_iff.mpr hc) (Bool.eq_false_iff.mpr hb) ?_
    rw [nextToken, htoken]
  | case5 offset c rest hc hb found extra htoken lexeme apart hapart =>
    refine fault offset c rest apart (Bool.eq_false_iff.mpr hc) (Bool.eq_false_iff.mpr hb) ?_
    rw [nextToken, htoken]
    simp only
    rw [hapart]
  | case6 offset c rest hc hb found extra htoken lexeme hapart ih =>
    exact token offset c rest found extra (Bool.eq_false_iff.mpr hc) (Bool.eq_false_iff.mpr hb)
      (nextToken_eq_ok_iff.mpr ⟨htoken, hapart⟩) ih

/-- The lexeme of a text that starts further behind. -/
def Lexeme.moved (n : Nat) (l : Lexeme) : Lexeme := { l with offset := l.offset + n }

/-- A text that starts further behind has the same tokens, each as far behind. -/
theorem scan_add (n offset : Nat) (s : List Char) :
    scan (offset + n) s =
      ((scan offset s).map (List.map (Lexeme.moved n))).mapError fun (place, fault) =>
        (place + n, fault) := by
  induction offset, s using scan_induction with
  | nil offset =>
    rw [scan_nil, scan_nil]
    rfl
  | separator offset c rest hc ih =>
    rw [scan_separator hc, scan_separator hc, Nat.add_right_comm, ih]
    cases scan (offset + 1) rest <;> rfl
  | blank offset c rest hc hb ih =>
    rw [scan_blank hc hb, scan_blank hc hb, Nat.add_right_comm, ih]
  | fault offset c rest found hc hb h =>
    rw [scan_fault hc hb h, scan_fault hc hb h]
    rfl
  | token offset c rest found extra hc hb h ih =>
    rw [scan_token hc hb h, scan_token hc hb h, Nat.add_right_comm, ih]
    cases scan (offset + byteLength (c :: rest.take extra)) (rest.drop extra) <;> rfl

/-- A text whose tokens are known is followed by those of the text behind it, if a blank
comes first there. -/
theorem scan_append_of_ok {offset : Nat} {s t : List Char} {tokens : List Lexeme}
    (ht : ∀ b ∈ t.head?, isBlank b = true) (h : scan offset s = .ok tokens) :
    scan offset (s ++ t) = (scan (offset + byteLength s) t).map (tokens ++ ·) := by
  induction offset, s using scan_induction generalizing tokens with
  | nil offset =>
    rw [scan_nil] at h
    cases h
    simp only [List.nil_append, byteLength, Nat.add_zero]
    cases scan offset t <;> rfl
  | separator offset c rest hc ih =>
    rw [scan_separator hc] at h
    cases hrest : scan (offset + 1) rest with
    | error e =>
      rw [hrest] at h
      contradiction
    | ok found =>
      rw [hrest] at h
      cases h
      rw [List.cons_append, scan_separator hc, ih hrest, byteLength, utf8Size_of_isSeparator hc,
        ← Nat.add_assoc]
      cases scan (offset + 1 + byteLength rest) t <;> rfl
  | blank offset c rest hc hb ih =>
    rw [scan_blank hc hb] at h
    rw [List.cons_append, scan_blank hc hb, ih h, byteLength, Nat.add_assoc]
  | fault offset c rest found hc hb hnext =>
    rw [scan_fault hc hb hnext] at h
    contradiction
  | token offset c rest found extra hc hb hnext ih =>
    rw [scan_token hc hb hnext] at h
    have hle := length_le_of_nextToken hnext
    cases hrest : scan (offset + byteLength (c :: rest.take extra)) (rest.drop extra) with
    | error e =>
      rw [hrest] at h
      contradiction
    | ok more =>
      rw [hrest] at h
      cases h
      have hbytes : offset + byteLength (c :: rest.take extra) + byteLength (rest.drop extra) =
          offset + byteLength (c :: rest) := by
        rw [Nat.add_assoc, ← byteLength_append, List.cons_append, List.take_append_drop]
      rw [List.cons_append, scan_token hc hb (nextToken_append_of_ok ht hnext),
        List.take_append_of_le_length hle, List.drop_append_of_le_length hle, ih hrest, hbytes]
      cases scan (offset + byteLength (c :: rest)) t <;> rfl

/-- A text that cannot be scanned cannot be scanned in front of blanks either. -/
theorem scan_append_of_error {offset : Nat} {s t : List Char} {e : Nat × Fault}
    (ht : ∀ b ∈ t, isBlank b = true) (h : scan offset s = .error e) :
    scan offset (s ++ t) = .error e := by
  induction offset, s using scan_induction with
  | nil offset =>
    rw [scan_nil] at h
    contradiction
  | separator offset c rest hc ih =>
    rw [scan_separator hc] at h
    rw [List.cons_append, scan_separator hc]
    cases hrest : scan (offset + 1) rest with
    | error e' =>
      rw [hrest] at h
      cases h
      rw [ih hrest]
      rfl
    | ok found =>
      rw [hrest] at h
      contradiction
  | blank offset c rest hc hb ih =>
    rw [scan_blank hc hb] at h
    rw [List.cons_append, scan_blank hc hb, ih h]
  | fault offset c rest found hc hb hnext =>
    rw [scan_fault hc hb hnext] at h
    cases h
    rw [List.cons_append, scan_fault hc hb]
    rw [nextToken_append_blank ht, hnext]
  | token offset c rest found extra hc hb hnext ih =>
    rw [scan_token hc hb hnext] at h
    have hle := length_le_of_nextToken hnext
    have hnext' : nextToken c (rest ++ t) = .ok (found, extra) := by
      rw [nextToken_append_blank ht, hnext]
    rw [List.cons_append, scan_token hc hb hnext', List.take_append_of_le_length hle,
      List.drop_append_of_le_length hle]
    cases hrest : scan (offset + byteLength (c :: rest.take extra)) (rest.drop extra) with
    | error e' =>
      rw [hrest] at h
      cases h
      rw [ih hrest]
      rfl
    | ok more =>
      rw [hrest] at h
      contradiction

/-- In front of a text, blanks are scanned as separators or not at all. -/
theorem exists_scan_of_blank (offset : Nat) {lead : List Char}
    (hlead : ∀ b ∈ lead, isBlank b = true) :
    ∃ tokens, (∀ l ∈ tokens, l.token = .separator) ∧ ∀ s,
      scan offset (lead ++ s) = (scan (offset + byteLength lead) s).map (tokens ++ ·) := by
  induction lead generalizing offset with
  | nil =>
    refine ⟨[], by simp, fun s => ?_⟩
    simp only [List.nil_append, byteLength, Nat.add_zero]
    cases scan offset s <;> rfl
  | cons b lead ih =>
    rw [List.forall_mem_cons] at hlead
    cases hb : isSeparator b with
    | true =>
      obtain ⟨tokens, htokens, hscan⟩ := ih (offset + 1) hlead.2
      refine ⟨⟨.separator, offset, [b]⟩ :: tokens, ?_, fun s => ?_⟩
      · rw [List.forall_mem_cons]
        exact ⟨rfl, htokens⟩
      · rw [List.cons_append, scan_separator hb, hscan, byteLength, utf8Size_of_isSeparator hb,
          ← Nat.add_assoc]
        cases scan (offset + 1 + byteLength lead) s <;> rfl
    | false =>
      obtain ⟨tokens, htokens, hscan⟩ := ih (offset + b.utf8Size) hlead.2
      refine ⟨tokens, htokens, fun s => ?_⟩
      rw [List.cons_append, scan_blank hb hlead.1, hscan, byteLength, Nat.add_assoc]

end Traceability.Filter
