import Mathlib.Data.ENat.Lattice
import Mathlib.Order.Lattice.Nat
import Traceability.Graph
import Traceability.Proofs.Resolution.Outcome

/-!
The paths that a request admits. A path starts at a start tag, and each hop follows a
relationship whose limit exceeds the number of hops before it. What admits a hop also
admits it earlier, so that a hop that follows some path to a tag follows the shortest
paths to it, too.
-/

namespace Traceability.Graph

/-- The number of hops for which a relationship is followed. -/
def Follow.hops (f : Follow) : ℕ∞ :=
  match f.limit with
  | some limit => limit
  | none => ⊤

theorem Follow.admits_iff (f : Follow) (depth : Nat) :
    f.admits depth = true ↔ (depth : ℕ∞) < f.hops := by
  unfold admits hops
  cases f.limit with
  | none => simp
  | some limit => simp

/-- A name that is requested several times has its largest limit, and one that is not
requested is never followed. -/
noncomputable def hops (name : String) : List Follow → ℕ∞
  | [] => 0
  | f :: follow => if f.name = name then max f.hops (hops name follow) else hops name follow

theorem lt_hops_iff (name : String) (follow : List Follow) (depth : Nat) :
    (depth : ℕ∞) < hops name follow ↔
      ∃ f ∈ follow, f.name = name ∧ f.admits depth = true := by
  induction follow with
  | nil => simp [hops]
  | cons f follow ih =>
    rw [hops]
    by_cases hname : f.name = name
    · simp [hname, ih, Follow.admits_iff]
    · simp [hname, ih]

theorem mem_linksOf (follow : List Follow) (depth : Nat) (item : Item) (l : Link) :
    l ∈ linksOf follow depth item ↔ l.source = item.tag ∧
      (depth : ℕ∞) < hops l.name follow ∧ l.target ∈ item.relatives l.name := by
  obtain ⟨source, target, name⟩ := l
  simp only [linksOf, List.mem_flatMap, List.mem_filter, List.mem_map, Link.mk.injEq,
    lt_hops_iff]
  constructor
  · rintro ⟨f, ⟨hf, hadmits⟩, _, hmem, rfl, rfl, rfl⟩
    exact ⟨rfl, ⟨f, hf, rfl, hadmits⟩, hmem⟩
  · rintro ⟨rfl, ⟨f, hf, rfl, hadmits⟩, hmem⟩
    exact ⟨f, ⟨hf, hadmits⟩, target, hmem, rfl, rfl, rfl⟩

/-- Some path of `n` hops leads to a tag. -/
inductive Leads (r : Registry) (q : Request) : Nat → String → Prop
  | start {tag : String} (h : tag ∈ q.start) : Leads r q 0 tag
  | hop {n : Nat} {a name b : String} (h : Leads r q n a) (hn : (n : ℕ∞) < hops name q.follow)
      (hrelated : r.Related a name b) : Leads r q (n + 1) b

def Reachable (r : Registry) (q : Request) (tag : String) : Prop := ∃ n, Leads r q n tag

/-- The number of hops of the shortest paths to a tag. -/
noncomputable def distance (r : Registry) (q : Request) (tag : String) : Nat :=
  sInf {n | Leads r q n tag}

variable {r : Registry} {q : Request} {tag : String}

theorem distance_le {n : Nat} (h : Leads r q n tag) : distance r q tag ≤ n := Nat.sInf_le h

theorem Reachable.leads_distance (h : Reachable r q tag) : Leads r q (distance r q tag) tag :=
  Nat.sInf_mem h

section Congr

variable {q' : Request} (hstart : ∀ tag, tag ∈ q'.start ↔ tag ∈ q.start)
variable (hhops : ∀ name, hops name q'.follow = hops name q.follow)
include hstart hhops

/-- The order and the repetition of start tags and relationships do not matter. -/
theorem leads_congr (n : Nat) (tag : String) : Leads r q' n tag ↔ Leads r q n tag := by
  constructor
  · intro h
    induction h with
    | start h => exact Leads.start ((hstart _).mp h)
    | hop _ hn hrelated ih => exact Leads.hop ih ((hhops _) ▸ hn) hrelated
  · intro h
    induction h with
    | start h => exact Leads.start ((hstart _).mpr h)
    | hop _ hn hrelated ih => exact Leads.hop ih ((hhops _).symm ▸ hn) hrelated

theorem reachable_congr (tag : String) : Reachable r q' tag ↔ Reachable r q tag :=
  exists_congr fun n => leads_congr hstart hhops n tag

theorem distance_congr (tag : String) : distance r q' tag = distance r q tag := by
  have hleads : {n | Leads r q' n tag} = {n | Leads r q n tag} :=
    Set.ext fun n => leads_congr hstart hhops n tag
  rw [distance, distance, hleads]

end Congr

end Traceability.Graph
