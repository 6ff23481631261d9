import Traceability.Matrix
import Traceability.Proofs.Sorted.Lookup

/-!
The matrix of some pairs depends on which pairs they are, not on their order and repetition.
Where the pairs are exchanged, rows become columns.
-/

namespace Traceability

def Pair.swap (p : Pair) : Pair := ⟨p.secondary, p.primary⟩

namespace Matrix

def transpose (m : Matrix) : Matrix :=
  ⟨m.opposite, m.relationship, m.secondaries, m.primaries,
    SortedSet.ofList (m.pairs.toList.map Pair.swap)⟩

section OfPairs

variable (relationship opposite : String) (pairs : List Pair)

theorem isRelated_ofPairs (primary secondary : String) :
    (ofPairs relationship opposite pairs).isRelated primary secondary = true ↔
      ⟨primary, secondary⟩ ∈ pairs := by
  rw [isRelated, SortedSet.contains, decide_eq_true_iff]
  exact SortedSet.mem_ofList

theorem mem_primaries_ofPairs (tag : String) :
    tag ∈ (ofPairs relationship opposite pairs).primaries ↔ ∃ other, ⟨tag, other⟩ ∈ pairs := by
  refine SortedSet.mem_ofList.trans (List.mem_map.trans ?_)
  constructor
  · rintro ⟨⟨primary, secondary⟩, hmem, rfl⟩
    exact ⟨secondary, hmem⟩
  · rintro ⟨other, hmem⟩
    exact ⟨_, hmem, rfl⟩

theorem mem_secondaries_ofPairs (tag : String) :
    tag ∈ (ofPairs relationship opposite pairs).secondaries ↔ ∃ other, ⟨other, tag⟩ ∈ pairs := by
  refine SortedSet.mem_ofList.trans (List.mem_map.trans ?_)
  constructor
  · rintro ⟨⟨primary, secondary⟩, hmem, rfl⟩
    exact ⟨primary, hmem⟩
  · rintro ⟨other, hmem⟩
    exact ⟨_, hmem, rfl⟩

variable {pairs}

/-- The matrix of exchanged pairs is the transposed matrix. -/
theorem ofPairs_eq_transpose {exchanged : List Pair} (h : ∀ p, p ∈ exchanged ↔ p.swap ∈ pairs) :
    ofPairs opposite relationship exchanged = (ofPairs relationship opposite pairs).transpose := by
  have hprimaries : (ofPairs opposite relationship exchanged).primaries =
      (ofPairs relationship opposite pairs).secondaries := by
    refine Rank.eq_of_mem_iff (SortedSet.increasing _) (SortedSet.increasing _) fun tag => ?_
    rw [mem_primaries_ofPairs, mem_secondaries_ofPairs]
    exact exists_congr fun other => h ⟨tag, other⟩
  have hsecondaries : (ofPairs opposite relationship exchanged).secondaries =
      (ofPairs relationship opposite pairs).primaries := by
    refine Rank.eq_of_mem_iff (SortedSet.increasing _) (SortedSet.increasing _) fun tag => ?_
    rw [mem_secondaries_ofPairs, mem_primaries_ofPairs]
    exact exists_congr fun other => h ⟨other, tag⟩
  have hpairs : (ofPairs opposite relationship exchanged).pairs =
      SortedSet.ofList ((ofPairs relationship opposite pairs).pairs.toList.map Pair.swap) := by
    refine SortedSet.ext_mem fun p => ?_
    change p ∈ (SortedSet.ofList exchanged).toList ↔ _
    rw [SortedSet.mem_ofList, SortedSet.mem_ofList, List.mem_map, h]
    constructor
    · intro hmem
      exact ⟨p.swap, SortedSet.mem_ofList.mpr hmem, rfl⟩
    · rintro ⟨q, hmem, rfl⟩
      exact SortedSet.mem_ofList.mp hmem
  rw [transpose, Matrix.mk.injEq]
  exact ⟨rfl, rfl, hprimaries, hsecondaries, hpairs⟩

end OfPairs

end Matrix

end Traceability
