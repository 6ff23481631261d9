import Traceability.Proofs.Filter.Composition

/-!
What the evaluation of a filter depends on: the values of the identifiers in it, and nothing
else of the source. A miss is one of these identifiers without a value, so that an outcome
stays the same where the source gets further attributes.
-/

namespace Traceability.Filter

variable {source source' : Source}

mutual

theorem Operand.bind_congr : ∀ x : Operand,
    (∀ name ∈ x.identifiers, source name = source' name) → x.bind source = x.bind source'
  | .identifier name, h => by
    have hname := h name (by simp [Operand.identifiers])
    rw [Operand.bind, Operand.bind, hname]
  | .number value, _ => by rw [Operand.bind, Operand.bind]
  | .text value, _ => by rw [Operand.bind, Operand.bind]
  | .list items, h => by
    have hitems := Operand.bindAll_congr items fun name hname => h name (by
      rw [Operand.identifiers]
      exact hname)
    rw [Operand.bind, Operand.bind, hitems]

theorem Operand.bindAll_congr : ∀ items : List Operand,
    (∀ name ∈ Operand.identifiersOfAll items, source name = source' name) →
      Operand.bindAll source items = Operand.bindAll source' items
  | [], _ => by rw [Operand.bindAll, Operand.bindAll]
  | item :: items, h => by
    rw [Operand.identifiersOfAll, List.forall_mem_append] at h
    rw [Operand.bindAll, Operand.bindAll, item.bind_congr h.1, Operand.bindAll_congr items h.2]

end

theorem Comparison.evaluate_congr (c : Comparison)
    (h : ∀ name ∈ c.identifiers, source name = source' name) :
    c.evaluate source = c.evaluate source' := by
  rw [Comparison.identifiers, List.forall_mem_append] at h
  rw [Comparison.evaluate, Comparison.evaluate, c.left.bind_congr h.1, c.right.bind_congr h.2]

theorem evaluateChain_congr (chain : List (Connective × Comparison)) (sofar : Bool)
    (h : ∀ name ∈ chain.flatMap fun link => link.2.identifiers, source name = source' name) :
    evaluateChain source sofar chain = evaluateChain source' sofar chain := by
  induction chain generalizing sofar with
  | nil => rfl
  | cons link chain ih =>
    obtain ⟨connective, c⟩ := link
    rw [List.flatMap_cons, List.forall_mem_append] at h
    have hfirst := c.evaluate_congr h.1
    have hrest (outcome : Bool) := ih outcome h.2
    cases connective with
    | and =>
      cases sofar with
      | false => exact hrest false
      | true => simp only [evaluateChain, hfirst, hrest]
    | or =>
      cases sofar with
      | false => simp only [evaluateChain, hfirst, hrest]
      | true => exact hrest true

/-- Sources that agree on the identifiers of a filter give it the same outcome. -/
theorem Expression.evaluate_congr (e : Expression)
    (h : ∀ name ∈ e.identifiers, source name = source' name) :
    e.evaluate source = e.evaluate source' := by
  rw [Expression.identifiers, List.forall_mem_append] at h
  have hchain (outcome : Bool) := evaluateChain_congr e.rest outcome h.2
  rw [Expression.evaluate, Expression.evaluate, e.first.evaluate_congr h.1]
  simp only [hchain]

section Misses

mutual

theorem Operand.of_bind_error {miss : Miss} : ∀ x : Operand, x.bind source = .error miss →
    miss.identifier ∈ x.identifiers ∧ source miss.identifier = none
  | .identifier name, h => by
    rw [Operand.bind] at h
    cases hname : source name with
    | some found =>
      rw [hname] at h
      contradiction
    | none =>
      rw [hname] at h
      cases h
      exact ⟨by simp [Operand.identifiers], hname⟩
  | .number value, h => by
    rw [Operand.bind] at h
    contradiction
  | .text value, h => by
    rw [Operand.bind] at h
    contradiction
  | .list items, h => by
    rw [Operand.bind] at h
    rw [Operand.identifiers]
    cases hitems : Operand.bindAll source items with
    | ok values =>
      rw [hitems] at h
      contradiction
    | error found =>
      rw [hitems] at h
      cases h
      exact Operand.of_bindAll_error items hitems

theorem Operand.of_bindAll_error {miss : Miss} : ∀ items : List Operand,
    Operand.bindAll source items = .error miss →
      miss.identifier ∈ Operand.identifiersOfAll items ∧ source miss.identifier = none
  | [], h => by
    rw [Operand.bindAll] at h
    contradiction
  | item :: items, h => by
    rw [Operand.bindAll] at h
    rw [Operand.identifiersOfAll, List.mem_append]
    cases hitem : item.bind source with
    | error found =>
      rw [hitem] at h
      cases h
      obtain ⟨hmem, hnone⟩ := item.of_bind_error hitem
      exact ⟨Or.inl hmem, hnone⟩
    | ok value =>
      rw [hitem] at h
      cases hitems : Operand.bindAll source items with
      | ok values =>
        simp only [hitems] at h
        contradiction
      | error found =>
        simp only [hitems] at h
        cases h
        obtain ⟨hmem, hnone⟩ := Operand.of_bindAll_error items hitems
        exact ⟨Or.inr hmem, hnone⟩

end

theorem Comparison.of_evaluate_error {miss : Miss} (c : Comparison)
    (h : c.evaluate source = .error miss) :
    miss.identifier ∈ c.identifiers ∧ source miss.identifier = none := by
  rw [Comparison.evaluate] at h
  rw [Comparison.identifiers, List.mem_append]
  cases hleft : c.left.bind source with
  | error found =>
    rw [hleft] at h
    cases h
    obtain ⟨hmem, hnone⟩ := c.left.of_bind_error hleft
    exact ⟨Or.inl hmem, hnone⟩
  | ok left =>
    rw [hleft] at h
    cases hright : c.right.bind source with
    | ok right =>
      simp only [hright] at h
      contradiction
    | error found =>
      simp only [hright] at h
      cases h
      obtain ⟨hmem, hnone⟩ := c.right.of_bind_error hright
      exact ⟨Or.inr hmem, hnone⟩

theorem of_evaluateChain_error {miss : Miss} (chain : List (Connective × Comparison))
    (sofar : Bool) (h : evaluateChain source sofar chain = .error miss) :
    miss.identifier ∈ chain.flatMap (fun link => link.2.identifiers) ∧
      source miss.identifier = none := by
  induction chain generalizing sofar with
  | nil => contradiction
  | cons link chain ih =>
    obtain ⟨connective, c⟩ := link
    rw [evaluateChain_cons, evaluateChain_singleton] at h
    rw [List.flatMap_cons, List.mem_append]
    split at h
    · cases hfirst : c.evaluate source with
      | error found =>
        rw [hfirst] at h
        cases h
        exact And.imp_left Or.inl (c.of_evaluate_error hfirst)
      | ok outcome =>
        rw [hfirst] at h
        exact And.imp_left Or.inr (ih outcome h)
    · exact And.imp_left Or.inr (ih sofar h)

/-- A miss is an identifier of the filter without a value. -/
theorem Expression.of_evaluate_error {miss : Miss} (e : Expression)
    (h : e.evaluate source = .error miss) :
    miss.identifier ∈ e.identifiers ∧ source miss.identifier = none := by
  rw [Expression.evaluate] at h
  rw [Expression.identifiers, List.mem_append]
  cases hfirst : e.first.evaluate source with
  | error found =>
    rw [hfirst] at h
    cases h
    exact And.imp_left Or.inl (e.first.of_evaluate_error hfirst)
  | ok outcome =>
    rw [hfirst] at h
    exact And.imp_left Or.inr (of_evaluateChain_error e.rest outcome h)

end Misses

section Extensions

/-- The source has every attribute of the other one, with the same value. -/
def Extends (source' source : Source) : Prop :=
  ∀ name value, source name = some value → source' name = some value

mutual

theorem Operand.bind_of_extends (hextends : Extends source' source) {v : Value} :
    ∀ x : Operand, x.bind source = .ok v → x.bind source' = .ok v
  | .identifier name, h => by
    rw [Operand.bind] at h ⊢
    cases hname : source name with
    | none =>
      rw [hname] at h
      contradiction
    | some found =>
      rw [hname] at h
      rw [hextends name found hname]
      exact h
  | .number value, h => by
    rw [Operand.bind] at h ⊢
    exact h
  | .text value, h => by
    rw [Operand.bind] at h ⊢
    exact h
  | .list items, h => by
    rw [Operand.bind] at h ⊢
    cases hitems : Operand.bindAll source items with
    | error miss =>
      rw [hitems] at h
      contradiction
    | ok values =>
      rw [hitems] at h
      rw [Operand.bindAll_of_extends hextends items hitems]
      exact h

theorem Operand.bindAll_of_extends (hextends : Extends source' source) {values : List Value} :
    ∀ items : List Operand, Operand.bindAll source items = .ok values →
      Operand.bindAll source' items = .ok values
  | [], h => by
    rw [Operand.bindAll] at h ⊢
    exact h
  | item :: items, h => by
    rw [Operand.bindAll] at h ⊢
    cases hitem : item.bind source with
    | error miss =>
      rw [hitem] at h
      contradiction
    | ok value =>
      rw [hitem] at h
      rw [item.bind_of_extends hextends hitem]
      cases hitems : Operand.bindAll source items with
      | error miss =>
        simp only [hitems] at h
        contradiction
      | ok rest =>
        simp only [hitems] at h
        simp only [Operand.bindAll_of_extends hextends items hitems]
        exact h

end

variable (hextends : Extends source' source)
include hextends

theorem Comparison.evaluate_of_extends {outcome : Bool} (c : Comparison)
    (h : c.evaluate source = .ok outcome) : c.evaluate source' = .ok outcome := by
  rw [Comparison.evaluate] at h ⊢
  cases hleft : c.left.bind source with
  | error miss =>
    rw [hleft] at h
    contradiction
  | ok left =>
    rw [hleft] at h
    cases hright : c.right.bind source with
    | error miss =>
      simp only [hright] at h
      contradiction
    | ok right =>
      rw [c.left.bind_of_extends hextends hleft]
      simp only [c.right.bind_of_extends hextends hright]
      simp only [hright] at h
      exact h

theorem evaluateChain_of_extends {outcome : Bool} (chain : List (Connective × Comparison))
    (sofar : Bool) (h : evaluateChain source sofar chain = .ok outcome) :
    evaluateChain source' sofar chain = .ok outcome := by
  induction chain generalizing sofar with
  | nil => exact h
  | cons link chain ih =>
    obtain ⟨connective, c⟩ := link
    rw [evaluateChain_cons, evaluateChain_singleton] at h ⊢
    split at h
    · rename_i hreached
      rw [if_pos hreached]
      cases hfirst : c.evaluate source with
      | error miss =>
        rw [hfirst] at h
        contradiction
      | ok result =>
        rw [hfirst] at h
        rw [c.evaluate_of_extends hextends hfirst]
        exact ih result h
    · rename_i hdecided
      rw [if_neg hdecided]
      exact ih sofar h

theorem Expression.evaluate_of_extends {outcome : Bool} (e : Expression)
    (h : e.evaluate source = .ok outcome) : e.evaluate source' = .ok outcome := by
  rw [Expression.evaluate] at h ⊢
  cases hfirst : e.first.evaluate source with
  | error miss =>
    rw [hfirst] at h
    contradiction
  | ok result =>
    rw [hfirst] at h
    rw [e.first.evaluate_of_extends hextends hfirst]
    exact evaluateChain_of_extends hextends e.rest result h

end Extensions

/-- Sources that agree on the identifiers of a filter give it the same outcome, or the same
miss. A miss is one of the identifiers, without a value; there is none where all of them have
values, and none where a source with fewer attributes has an outcome, which stays the same. -/
theorem evaluation_rests_on_identifiers (e : Expression) :
    (∀ source source', (∀ name ∈ e.identifiers, source name = source' name) →
      e.evaluate source = e.evaluate source') ∧
    (∀ source miss, e.evaluate source = .error miss →
      miss.identifier ∈ e.identifiers ∧ source miss.identifier = none) ∧
    (∀ source, (∀ name ∈ e.identifiers, ∃ value, source name = some value) →
      ∃ outcome, e.evaluate source = .ok outcome) ∧
    ∀ source source' outcome, e.evaluate source = .ok outcome → Extends source' source →
      e.evaluate source' = .ok outcome := by
  refine ⟨fun _ _ => e.evaluate_congr, fun _ _ => e.of_evaluate_error, fun source hvalues => ?_,
    fun _ _ _ h hextends => e.evaluate_of_extends hextends h⟩
  cases houtcome : e.evaluate source with
  | ok outcome => exact ⟨outcome, rfl⟩
  | error miss =>
    obtain ⟨hmem, hnone⟩ := e.of_evaluate_error houtcome
    obtain ⟨value, hvalue⟩ := hvalues _ hmem
    rw [hnone] at hvalue
    contradiction

end Traceability.Filter
