import Mathlib.Data.List.Induction
import Traceability.Filter.Cache
import Traceability.Proofs.Resolution.References

/-!
Which filters a cache keeps. After any requests and clearings it holds the texts that were
requested last, as many as its capacity admits. Texts that are no filters do not count, and
a text counts where it was requested last.
-/

namespace Traceability

section Distinct

variable {α : Type} [BEq α] [LawfulBEq α]

theorem eraseDups_filter (p : α → Bool) (l : List α) :
    (l.filter p).eraseDups = l.eraseDups.filter p := by
  match l with
  | [] => rfl
  | a :: rest =>
    have ih := eraseDups_filter p (rest.filter fun b => !b == a)
    rw [List.eraseDups_cons, List.filter_cons, List.filter_cons, ← ih]
    by_cases ha : p a = true
    · rw [if_pos ha, if_pos ha, List.eraseDups_cons, List.filter_filter, List.filter_filter]
      simp only [Bool.and_comm]
    · have hrest : (rest.filter fun b => !b == a).filter p = rest.filter p := by
        rw [List.filter_filter]
        apply List.filter_congr
        intro b _
        by_cases hb : b = a
        · simp [hb, ha]
        · simp [hb]
      rw [if_neg ha, if_neg ha, hrest]
termination_by l.length
decreasing_by
  have hle := List.length_filter_le (fun b => !b == a) rest
  simp only [List.length_cons]
  omega

/-- A member is taken out of the first elements of a list, and the others move up. -/
theorem take_filter_take {l : List α} (hl : l.Nodup) (a : α) (n : Nat) :
    ((l.take (n + 1)).filter fun b => b != a).take n =
      (l.filter fun b => b != a).take n := by
  induction l generalizing n with
  | nil => rfl
  | cons b rest ih =>
    rw [List.nodup_cons] at hl
    rw [List.take_succ_cons, List.filter_cons, List.filter_cons]
    by_cases hb : b = a
    · have habsent (m : List α) (hm : ∀ x ∈ m, x ∈ rest) : (m.filter fun x => x != a) = m := by
        rw [List.filter_eq_self]
        intro x hx
        have hne : x ≠ a := fun heq => hl.1 (hb.trans heq.symm ▸ hm x hx)
        simpa using hne
      have hfirst := habsent (rest.take n) fun x => List.mem_of_mem_take
      have hrest := habsent rest fun x hx => hx
      simp only [hb, bne_self_eq_false, Bool.false_eq_true, if_false]
      rw [hfirst, hrest, List.take_take, Nat.min_self]
    · simp only [bne_iff_ne, ne_eq, hb, not_false_eq_true, if_true]
      cases n with
      | zero => rfl
      | succ n => rw [List.take_succ_cons, List.take_succ_cons, ih hl.2]

end Distinct

namespace Filter

def isFilter (text : String) : Bool := (Expression.parse text).isOk

theorem isFilter_of_parse {text : String} {e : Expression} (h : Expression.parse text = .ok e) :
    isFilter text = true := by
  rw [isFilter, h]
  rfl

theorem isFilter_of_error {text : String} {error : SyntaxError}
    (h : Expression.parse text = .error error) : isFilter text = false := by
  rw [isFilter, h]
  rfl

namespace Cache

/-- What is asked of a cache. -/
inductive Call where
  | request (text : String)
  | clear
deriving DecidableEq

def Call.text? : Call → Option String
  | request text => some text
  | clear => none

def after (c : Cache) : Call → Cache
  | .request text => (c.request text).1
  | .clear => c.clear

def run (c : Cache) (calls : List Call) : Cache := calls.foldl after c

/-- The texts whose filters are kept. -/
def keys (c : Cache) : List String := c.entries.map Prod.fst

/-- The texts that were requested since the last clearing, the last one first. -/
def requested (calls : List Call) : List String :=
  (calls.reverse.map Call.text?).takeWhile Option.isSome |>.filterMap id

/-- The filters among them, each once. -/
def recent (calls : List Call) : List String :=
  ((requested calls).filter isFilter).eraseDups

theorem run_append_singleton (c : Cache) (calls : List Call) (call : Call) :
    c.run (calls ++ [call]) = (c.run calls).after call := List.foldl_append ..

theorem requested_clear (calls : List Call) : requested (calls ++ [.clear]) = [] := by
  simp [requested, Call.text?]

theorem requested_request (calls : List Call) (text : String) :
    requested (calls ++ [.request text]) = text :: requested calls := by
  simp [requested, Call.text?]

theorem recent_of_filter (calls : List Call) {text : String} (h : isFilter text = true) :
    recent (calls ++ [.request text]) =
      text :: (recent calls).filter fun other => other != text := by
  rw [recent, requested_request, List.filter_cons, if_pos h, List.eraseDups_cons,
    eraseDups_filter]
  rfl

theorem recent_of_not_filter (calls : List Call) {text : String} (h : isFilter text = false) :
    recent (calls ++ [.request text]) = recent calls := by
  rw [recent, requested_request, List.filter_cons, if_neg (by simp [h]), recent]

theorem recent_clear (calls : List Call) : recent (calls ++ [.clear]) = [] := by
  rw [recent, requested_clear]
  rfl

theorem nodup_recent (calls : List Call) : (recent calls).Nodup := nodup_eraseDups _

theorem isFilter_of_mem_recent {calls : List Call} {text : String} (h : text ∈ recent calls) :
    isFilter text = true := by
  rw [recent, List.mem_eraseDups] at h
  exact (List.mem_filter.mp h).2

theorem lookup_isSome_iff (c : Cache) (text : String) :
    (c.entries.lookup text).isSome = true ↔ text ∈ c.keys := by
  unfold keys
  induction c.entries with
  | nil => simp
  | cons entry entries ih =>
    obtain ⟨key, e⟩ := entry
    by_cases hkey : text = key
    · simp [hkey]
    · have hbeq : (text == key) = false := by simpa using hkey
      simp only [List.lookup_cons, hbeq, List.map_cons, List.mem_cons, hkey, false_or]
      exact ih

theorem keys_remember (c : Cache) (text : String) (e : Expression) :
    (c.remember text e).keys =
      (text :: c.keys.filter fun other => other != text).take c.capacity := by
  rw [keys, keys, remember, List.map_take, List.map_cons, List.filter_map]
  rfl

/-- A text that is no filter is not kept, and its request leaves the cache as it is. -/
theorem request_of_error (c : Cache) {text : String} {error : SyntaxError}
    (hkeys : text ∉ c.keys) (h : Expression.parse text = .error error) :
    c.request text = (c, .error error) := by
  have hnone : c.entries.lookup text = none := by
    rw [← lookup_isSome_iff, Bool.not_eq_true, Option.isSome_eq_false_iff,
      Option.isNone_iff_eq_none] at hkeys
    exact hkeys
  rw [request, hnone, h]

/-- The request of a filter moves it to the front. -/
theorem exists_remember (c : Cache) {text : String} (h : isFilter text = true) :
    ∃ e, (c.request text).1 = c.remember text e := by
  unfold request
  cases hlookup : c.entries.lookup text with
  | some e => exact ⟨e, rfl⟩
  | none =>
    cases hparse : Expression.parse text with
    | ok e => exact ⟨e, rfl⟩
    | error error =>
      rw [isFilter_of_error hparse] at h
      contradiction

/-- The cache holds the filters that were requested last, up to its capacity. -/
structure Holds (c : Cache) (capacity : Nat) (calls : List Call) : Prop where
  capacity_eq : c.capacity = max capacity 1
  keys_eq : c.keys = (recent calls).take c.capacity

theorem holds_empty (capacity : Nat) : (empty capacity).Holds capacity [] where
  capacity_eq := rfl
  keys_eq := by
    rw [recent, requested]
    exact List.take_nil.symm

namespace Holds

variable {c : Cache} {capacity : Nat} {calls : List Call}

theorem exists_room (h : c.Holds capacity calls) : ∃ n, c.capacity = n + 1 := by
  have hcapacity := h.capacity_eq
  exact ⟨c.capacity - 1, by omega⟩

theorem notMem_keys (h : c.Holds capacity calls) {text : String}
    (htext : isFilter text = false) : text ∉ c.keys := by
  intro hmem
  rw [h.keys_eq] at hmem
  have hfilter := isFilter_of_mem_recent (List.mem_of_mem_take hmem)
  rw [hfilter] at htext
  contradiction

theorem remember (h : c.Holds capacity calls) {text : String} (htext : isFilter text = true)
    (e : Expression) : (c.remember text e).Holds capacity (calls ++ [.request text]) := by
  refine ⟨h.capacity_eq, ?_⟩
  obtain ⟨n, hn⟩ := h.exists_room
  have hcapacity : (c.remember text e).capacity = n + 1 := hn
  rw [keys_remember, recent_of_filter calls htext, h.keys_eq, hcapacity, hn,
    List.take_succ_cons, List.take_succ_cons, take_filter_take (nodup_recent calls)]

theorem after (h : c.Holds capacity calls) (call : Call) :
    (c.after call).Holds capacity (calls ++ [call]) := by
  cases call with
  | clear =>
    refine ⟨h.capacity_eq, ?_⟩
    rw [recent_clear, List.take_nil]
    rfl
  | request text =>
    cases hparse : Expression.parse text with
    | ok e =>
      have htext := isFilter_of_parse hparse
      obtain ⟨kept, hkept⟩ := c.exists_remember htext
      rw [Cache.after, hkept]
      exact h.remember htext kept
    | error error =>
      have htext := isFilter_of_error hparse
      rw [Cache.after, c.request_of_error (h.notMem_keys htext) hparse]
      refine ⟨h.capacity_eq, ?_⟩
      rw [recent_of_not_filter calls htext]
      exact h.keys_eq

end Holds

/-- What one call preserves, every run preserves. -/
theorem holds_run (capacity : Nat) (calls : List Call) :
    ((empty capacity).run calls).Holds capacity calls := by
  induction calls using List.reverseRecOn with
  | nil => exact holds_empty capacity
  | append_singleton calls call ih =>
    rw [run_append_singleton]
    exact ih.after call

end Cache

end Filter

end Traceability
