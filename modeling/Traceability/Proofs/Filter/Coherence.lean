import Traceability.Proofs.Filter.Dependence

/-!
The comparators of filters agree with each other. Comparing two values the other way round turns
the outcome round, and values are equal exactly if they compare as equal, down to the items of
nested lists. Of numbers nothing else is used, so that it does no harm that some of them compare
with nothing, not even with themselves.
-/

namespace Traceability

namespace Binary64

theorem order_swap (a b : Int) : order b a = (order a b).swap := by
  unfold order
  by_cases hab : a < b
  · rw [if_pos hab, if_neg (by omega), if_pos hab]
    rfl
  · by_cases hba : b < a
    · rw [if_pos hba, if_neg hab, if_pos hba]
      rfl
    · rw [if_neg hba, if_neg hab, if_neg hab, if_neg hba]
      rfl

/-- Two numbers compare the other way round, or not at all. -/
theorem compare?_swap (a b : Binary64) : b.compare? a = (a.compare? b).map Ordering.swap := by
  rcases a with _ | s | ⟨s, m⟩
  · cases b <;> rfl
  · rcases b with _ | t | ⟨t, n⟩
    · rfl
    · exact congrArg some (order_swap _ _)
    · cases s <;> rfl
  · rcases b with _ | t | ⟨t, n⟩
    · rfl
    · cases t <;> rfl
    · exact congrArg some (order_swap _ _)

theorem equal_iff (a b : Binary64) : a.equal b = true ↔ a.compare? b = some .eq := by
  rw [equal, beq_iff_eq]

end Binary64

namespace Text

theorem compare_swap (s t : String) : compare t s = (compare s t).swap := by
  unfold compare
  by_cases hst : precedes s.toList t.toList = true
  · have hts : ¬ precedes t.toList s.toList = true := by
      intro hts
      have hself := precedes_trans hst hts
      rw [precedes_irrefl] at hself
      contradiction
    rw [if_pos hst, if_neg hts, if_pos hst]
    rfl
  · by_cases hts : precedes t.toList s.toList = true
    · rw [if_pos hts, if_neg hst, if_pos hts]
      rfl
    · rw [if_neg hts, if_neg hst, if_neg hst, if_neg hts]
      rfl

theorem compare_eq_iff (s t : String) : compare s t = .eq ↔ s = t := by
  constructor
  · intro h
    unfold compare at h
    split at h
    · contradiction
    · rename_i hst
      split at h
      · contradiction
      · rename_i hts
        rw [Bool.not_eq_true] at hst hts
        exact String.toList_injective (eq_of_not_precedes hst hts)
  · rintro rfl
    simp [compare, precedes_irrefl]

end Text

namespace Filter

section Values

mutual

/-- Two values compare the other way round, or not at all. -/
theorem Value.compare?_swap : ∀ a b : Value, b.compare? a = (a.compare? b).map Ordering.swap
  | .text a, .text b => by
    rw [Value.compare?, Value.compare?, Text.compare_swap a b]
    rfl
  | .number a, .number b => by rw [Value.compare?, Value.compare?, a.compare?_swap b]
  | .text a, .number b => by
    rw [Value.compare?, Value.compare?]
    cases asNumber? a with
    | none => rfl
    | some a => exact a.compare?_swap b
  | .number a, .text b => by
    rw [Value.compare?, Value.compare?]
    cases asNumber? b with
    | none => rfl
    | some b => exact a.compare?_swap b
  | .list as, .list bs => by
    rw [Value.compare?, Value.compare?, Value.compareAll?_swap as bs]
  | .text _, .list _ => by simp [Value.compare?]
  | .number _, .list _ => by simp [Value.compare?]
  | .list _, .text _ => by simp [Value.compare?]
  | .list _, .number _ => by simp [Value.compare?]

theorem Value.compareAll?_swap : ∀ as bs : List Value,
    Value.compareAll? bs as = (Value.compareAll? as bs).map Ordering.swap
  | [], [] => by rw [Value.compareAll?]; rfl
  | [], _ :: _ => by rw [Value.compareAll?, Value.compareAll?]; rfl
  | _ :: _, [] => by rw [Value.compareAll?, Value.compareAll?]; rfl
  | a :: as, b :: bs => by
    rw [Value.compareAll?, Value.compareAll?, Value.compare?_swap a b]
    rcases a.compare? b with _ | _ | _ | _
    · rfl
    · rfl
    · exact Value.compareAll?_swap as bs
    · rfl

end

mutual

/-- Values are equal exactly if they compare as equal. -/
theorem Value.equal_iff : ∀ a b : Value, a.equal b = true ↔ a.compare? b = some .eq
  | .text a, .text b => by
    rw [Value.equal, Value.compare?, beq_iff_eq, Option.some.injEq, Text.compare_eq_iff]
  | .number a, .number b => by rw [Value.equal, Value.compare?, Binary64.equal_iff]
  | .text a, .number b => by
    rw [Value.equal, Value.compare?]
    cases asNumber? a with
    | none => simp
    | some a => exact Binary64.equal_iff a b
  | .number a, .text b => by
    rw [Value.equal, Value.compare?]
    cases asNumber? b with
    | none => simp
    | some b =>
      simp only [Option.bind_some]
      rw [Binary64.equal_iff, a.compare?_swap b]
      rcases a.compare? b with _ | _ | _ | _ <;> simp
  | .list as, .list bs => by rw [Value.equal, Value.compare?, Value.equalAll_iff as bs]
  | .text _, .list _ => by simp [Value.equal, Value.compare?]
  | .number _, .list _ => by simp [Value.equal, Value.compare?]
  | .list _, .text _ => by simp [Value.equal, Value.compare?]
  | .list _, .number _ => by simp [Value.equal, Value.compare?]

theorem Value.equalAll_iff : ∀ as bs : List Value,
    Value.equalAll as bs = true ↔ Value.compareAll? as bs = some .eq
  | [], [] => by simp [Value.equalAll, Value.compareAll?]
  | [], _ :: _ => by simp [Value.equalAll, Value.compareAll?]
  | _ :: _, [] => by simp [Value.equalAll, Value.compareAll?]
  | a :: as, b :: bs => by
    have hfirst := Value.equal_iff a b
    have hrest := Value.equalAll_iff as bs
    rw [Value.equalAll, Value.compareAll?, Bool.and_eq_true, hfirst, hrest]
    rcases a.compare? b with _ | _ | _ | _ <;> simp

end

theorem Value.equal_comm (a b : Value) : a.equal b = true ↔ b.equal a = true := by
  rw [Value.equal_iff, Value.equal_iff, Value.compare?_swap a b]
  rcases a.compare? b with _ | _ | _ | _ <;> simp

end Values

section Comparators

variable (v w : Value)

theorem Comparator.apply_lt_iff :
    (Comparator.sign .lt).apply v w = true ↔ v.compare? w = some .lt := by
  rw [Comparator.apply, beq_iff_eq]

theorem Comparator.apply_gt_iff :
    (Comparator.sign .gt).apply v w = true ↔ v.compare? w = some .gt := by
  rw [Comparator.apply, beq_iff_eq]

theorem Comparator.apply_eq_iff :
    (Comparator.sign .eq).apply v w = true ↔ v.compare? w = some .eq := by
  rw [Comparator.apply, Value.equal_iff]

theorem Comparator.apply_le_iff :
    (Comparator.sign .le).apply v w = true ↔
      v.compare? w = some .lt ∨ v.compare? w = some .eq := by
  rw [Comparator.apply, Bool.or_eq_true, beq_iff_eq, beq_iff_eq]

theorem Comparator.apply_ge_iff :
    (Comparator.sign .ge).apply v w = true ↔
      v.compare? w = some .gt ∨ v.compare? w = some .eq := by
  rw [Comparator.apply, Bool.or_eq_true, beq_iff_eq, beq_iff_eq]

theorem Value.compare?_eq_gt_iff : w.compare? v = some .gt ↔ v.compare? w = some .lt := by
  rw [Value.compare?_swap v w]
  rcases v.compare? w with _ | _ | _ | _ <;> simp

end Comparators

/-- The source has a value for each identifier in the operand. -/
def Operand.BoundIn (x : Operand) (source : Source) : Prop :=
  ∀ name ∈ x.identifiers, ∃ value, source name = some value

def Comparison.Holds (source : Source) (c : Comparison) : Prop := c.evaluate source = .ok true

section Operands

variable {source : Source} {l r : Operand} {v w : Value}

theorem Operand.BoundIn.exists_bind {x : Operand} (h : x.BoundIn source) :
    ∃ value, x.bind source = .ok value := by
  cases hx : x.bind source with
  | ok value => exact ⟨value, rfl⟩
  | error miss =>
    obtain ⟨hmem, hnone⟩ := x.of_bind_error hx
    obtain ⟨value, hvalue⟩ := h _ hmem
    rw [hnone] at hvalue
    contradiction

variable (hl : l.bind source = .ok v) (hr : r.bind source = .ok w)

include hl hr in
theorem Comparison.evaluate_of_bind (comparator : Comparator) :
    Comparison.evaluate source ⟨l, comparator, r⟩ = .ok (comparator.apply v w) := by
  simp only [Comparison.evaluate, hl, hr]
  rfl

include hl hr in
theorem Comparison.holds_iff (comparator : Comparator) :
    Comparison.Holds source ⟨l, comparator, r⟩ ↔ comparator.apply v w = true := by
  rw [Comparison.Holds, Comparison.evaluate_of_bind hl hr, Except.ok.injEq]

include hl in
/-- A list holds what is equal to one of its items. -/
theorem holds_list_iff {items : List Operand} {values : List Value}
    (hitems : Operand.bindAll source items = .ok values) :
    (Value.list values).holds v = true ↔
      ∃ item ∈ items, Comparison.Holds source ⟨l, .sign .eq, item⟩ := by
  rw [Value.holds, List.any_eq_true]
  induction items generalizing values with
  | nil =>
    rw [Operand.bindAll] at hitems
    cases hitems
    simp
  | cons item items ih =>
    rw [Operand.bindAll] at hitems
    cases hitem : item.bind source with
    | error miss =>
      rw [hitem] at hitems
      contradiction
    | ok value =>
      rw [hitem] at hitems
      cases hrest : Operand.bindAll source items with
      | error miss =>
        simp only [hrest] at hitems
        contradiction
      | ok rest =>
        simp only [hrest] at hitems
        cases hitems
        have hfirst : Comparison.Holds source ⟨l, .sign .eq, item⟩ ↔ value.equal v = true := by
          rw [Comparison.holds_iff hl hitem, Value.equal_comm]
          rfl
        simp only [List.mem_cons, exists_eq_or_imp, hfirst, ih hrest]

end Operands

/-- For a source with the values that two operands read, every comparator has an answer, and the
answers agree: at most is less or equal, at least is greater or equal, and no two of less, equal
and greater hold. Less turns into greater the other way round, equality has no direction, and
the negated comparators negate the others. Within a list is what is equal to one of its items. -/
theorem comparators_cohere {source : Source} {l r : Operand} (hl : l.BoundIn source)
    (hr : r.BoundIn source) :
    let holds (l : Operand) (comparator : Comparator) (r : Operand) :=
      Comparison.Holds source ⟨l, comparator, r⟩
    (∀ comparator, ∃ outcome, Comparison.evaluate source ⟨l, comparator, r⟩ = .ok outcome) ∧
    (holds l (.sign .le) r ↔ holds l (.sign .lt) r ∨ holds l (.sign .eq) r) ∧
    (holds l (.sign .ge) r ↔ holds l (.sign .gt) r ∨ holds l (.sign .eq) r) ∧
    (holds l (.sign .lt) r ↔ holds r (.sign .gt) l) ∧
    (holds l (.sign .eq) r ↔ holds r (.sign .eq) l) ∧
    ¬ (holds l (.sign .lt) r ∧ holds l (.sign .eq) r) ∧
    ¬ (holds l (.sign .lt) r ∧ holds l (.sign .gt) r) ∧
    ¬ (holds l (.sign .eq) r ∧ holds l (.sign .gt) r) ∧
    (holds l (.sign .ne) r ↔ ¬ holds l (.sign .eq) r) ∧
    (holds l .outside r ↔ ¬ holds l .within r) ∧
    ∀ items, r = .list items →
      (holds l .within r ↔ ∃ item ∈ items, holds l (.sign .eq) item) := by
  intro holds
  obtain ⟨v, hv⟩ := hl.exists_bind
  obtain ⟨w, hw⟩ := hr.exists_bind
  have hto (comparator : Comparator) : holds l comparator r ↔ comparator.apply v w = true :=
    Comparison.holds_iff hv hw comparator
  have hfro (comparator : Comparator) : holds r comparator l ↔ comparator.apply w v = true :=
    Comparison.holds_iff hw hv comparator
  refine ⟨fun comparator => ⟨_, Comparison.evaluate_of_bind hv hw comparator⟩, ?_, ?_, ?_, ?_, ?_,
    ?_, ?_, ?_, ?_, ?_⟩
  · rw [hto, hto, hto, Comparator.apply_le_iff, Comparator.apply_lt_iff, Comparator.apply_eq_iff]
  · rw [hto, hto, hto, Comparator.apply_ge_iff, Comparator.apply_gt_iff, Comparator.apply_eq_iff]
  · rw [hto, hfro, Comparator.apply_lt_iff, Comparator.apply_gt_iff, Value.compare?_eq_gt_iff]
  · rw [hto, hfro]
    exact Value.equal_comm v w
  · rw [hto, hto, Comparator.apply_lt_iff, Comparator.apply_eq_iff]
    rintro ⟨hless, hsame⟩
    simp [hless] at hsame
  · rw [hto, hto, Comparator.apply_lt_iff, Comparator.apply_gt_iff]
    rintro ⟨hless, hgreater⟩
    simp [hless] at hgreater
  · rw [hto, hto, Comparator.apply_eq_iff, Comparator.apply_gt_iff]
    rintro ⟨hsame, hgreater⟩
    simp [hsame] at hgreater
  · rw [hto, hto, Comparator.apply, Comparator.apply, Bool.not_eq_true', Bool.not_eq_true]
  · rw [hto, hto, Comparator.apply, Comparator.apply, Bool.not_eq_true', Bool.not_eq_true]
  · rintro items rfl
    rw [Operand.bind] at hw
    cases hitems : Operand.bindAll source items with
    | error miss =>
      rw [hitems] at hw
      contradiction
    | ok values =>
      rw [hitems] at hw
      cases hw
      rw [hto, Comparator.apply]
      exact holds_list_iff hv hitems

/-- A text is read as a number where it meets one, also within lists. -/
theorem comparators_cohere_of_lists :
    let source : Source := fun name => if name = "version" then some " 1.0 " else none
    let one : Operand := .number (.ofDecimal false 1 0)
    let l : Operand := .list [.identifier "version", .text "a"]
    let r : Operand := .list [one, .text "b"]
    Comparison.Holds source ⟨r, .sign .gt, l⟩ ∧ ¬ Comparison.Holds source ⟨l, .sign .eq, r⟩ ∧
      Comparison.Holds source ⟨.identifier "version", .within, r⟩ := by
  intro source one l r
  have hl : l.BoundIn source := by
    intro name hname
    change name ∈ ["version"] at hname
    exact ⟨" 1.0 ", if_pos (List.mem_singleton.mp hname)⟩
  have hr : r.BoundIn source := by
    intro name hname
    exact absurd hname List.not_mem_nil
  have hv : (Operand.identifier "version").BoundIn source := by
    intro name hname
    exact ⟨" 1.0 ", if_pos (List.mem_singleton.mp hname)⟩
  have hless : Comparison.Holds source ⟨l, .sign .lt, r⟩ :=
    (Comparison.holds_iff rfl rfl _).mpr (by decide +kernel)
  have hsame : Comparison.Holds source ⟨.identifier "version", .sign .eq, one⟩ :=
    (Comparison.holds_iff rfl rfl _).mpr (by decide +kernel)
  obtain ⟨-, -, -, hturn, -, hnot, -⟩ := comparators_cohere hl hr
  obtain ⟨-, -, -, -, -, -, -, -, -, -, hamong⟩ := comparators_cohere hv hr
  exact ⟨hturn.mp hless, fun heq => hnot ⟨hless, heq⟩,
    (hamong _ rfl).mpr ⟨one, List.mem_cons_self, hsame⟩⟩

end Filter

end Traceability
