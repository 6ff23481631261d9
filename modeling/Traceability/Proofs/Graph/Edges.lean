import Traceability.Graph
import Traceability.Proofs.Relationship.Directions
import Traceability.Proofs.Resolution.Outcome

/-!
The edges that links are written as. A link and the same link read from its other end have
one edge, and an edge that is read as a link again is the edge of that link.
-/

namespace Traceability.Graph

open Relationship.Index

/-- The edge is read in the direction of its name: from the forward end, or from the lower
tag where the name is symmetric. -/
structure Normal (index : Relationship.Index) (e : Edge) : Prop where
  direction : index.direction? e.relationship = some e.direction
  ne_backward : e.direction ≠ .backward
  ordered : e.direction = .symmetric → Rank.before e.target e.source = false

/-- The edge as a link from its source. -/
def Edge.link (e : Edge) : Link := ⟨e.source, e.target, e.relationship⟩

variable {index : Relationship.Index}

theorem edgeOf_eq {l : Link} {d : Direction} (h : index.direction? l.name = some d) :
    edgeOf index l = Edge.ofLink index l d := by
  rw [edgeOf, h, Option.getD_some]

/-- A normal edge is its own normal form. -/
theorem Normal.edgeOf_link {e : Edge} (h : Normal index e) : edgeOf index e.link = e := by
  rw [edgeOf_eq h.direction]
  obtain ⟨source, target, relationship, direction⟩ := e
  cases direction with
  | forward => rfl
  | backward => exact absurd rfl h.ne_backward
  | symmetric =>
    have hordered : Rank.before target source = false := h.ordered rfl
    simp [Edge.ofLink, Edge.link, hordered]

section Configured

variable (hdirected : index.Directed)
include hdirected

theorem normal_edgeOf {l : Link} (hname : index.contains l.name = true) :
    Normal index (edgeOf index l) := by
  obtain ⟨d, hd, hflip, -⟩ := hdirected.direction?_opposite hname
  rw [edgeOf_eq hd]
  cases d with
  | forward => exact ⟨hd, by simp [Edge.ofLink], by simp [Edge.ofLink]⟩
  | backward => exact ⟨hflip, by simp [Edge.ofLink], by simp [Edge.ofLink]⟩
  | symmetric =>
    unfold Edge.ofLink
    by_cases hbefore : Rank.before l.target l.source = true
    · rw [if_pos hbefore]
      exact ⟨hd, by simp, fun _ => Rank.asymm hbefore⟩
    · rw [if_neg hbefore]
      exact ⟨hd, by simp, fun _ => Bool.eq_false_iff.mpr hbefore⟩

/-- The edge of a link is that link or the link read from its other end. -/
theorem link_edgeOf {l : Link} (hname : index.contains l.name = true) :
    (edgeOf index l).link = l ∨
      (edgeOf index l).link = ⟨l.target, l.source, index.opposite l.name⟩ := by
  obtain ⟨d, hd, -, hsymmetric⟩ := hdirected.direction?_opposite hname
  rw [edgeOf_eq hd]
  cases d with
  | forward => exact Or.inl rfl
  | backward => exact Or.inr rfl
  | symmetric =>
    unfold Edge.ofLink
    by_cases hbefore : Rank.before l.target l.source = true
    · rw [if_pos hbefore, ← hsymmetric.mp rfl]
      exact Or.inr rfl
    · rw [if_neg hbefore]
      exact Or.inl rfl

variable (hindex : index.Exact)
include hindex

/-- Read from its other end, a link has the same edge. -/
theorem edgeOf_opposite (a b : String) {name : String} (hname : index.contains name = true) :
    edgeOf index ⟨b, a, index.opposite name⟩ = edgeOf index ⟨a, b, name⟩ := by
  obtain ⟨d, hd, hflip, hsymmetric⟩ := hdirected.direction?_opposite hname
  have hback := (opposite_opposite hindex name hname).2
  rw [edgeOf_eq (l := ⟨a, b, name⟩) hd, edgeOf_eq (l := ⟨b, a, index.opposite name⟩) hflip]
  cases d with
  | forward => simp [Direction.flip, Edge.ofLink, hback]
  | backward => rfl
  | symmetric =>
    have hsame : index.opposite name = name := (hsymmetric.mp rfl).symm
    simp only [Direction.flip, Edge.ofLink, hsame]
    cases hab : Rank.before a b with
    | true => rw [if_pos rfl, Rank.asymm hab, if_neg Bool.false_ne_true]
    | false =>
      rw [if_neg Bool.false_ne_true]
      split
      · rfl
      · rename_i hba
        rw [Rank.connected hab (Bool.eq_false_iff.mpr hba)]

/-- Two edges of which one is the other read from its target are one edge. -/
theorem Normal.eq_of_opposite {e f : Edge} (he : Normal index e) (hf : Normal index f)
    (hname : index.contains e.relationship = true)
    (h : f.link = ⟨e.target, e.source, index.opposite e.relationship⟩) : f = e := by
  calc f = edgeOf index f.link := hf.edgeOf_link.symm
    _ = edgeOf index e.link := by
        rw [h]
        exact edgeOf_opposite hdirected hindex e.source e.target hname
    _ = e := he.edgeOf_link

end Configured

end Traceability.Graph
