import Traceability.Relationship
import Traceability.Registry
import Traceability.Sorted.Search

/-!
A walk starts at some items and follows relationships from item to item, each
relationship for a limited number of hops from the start. The items wait in a queue, and
one joins it when it is reached first, so that every item is expanded once. Edges are
written from the forward end, and symmetric ones from the lower tag, so that a link has
one edge.
-/

namespace Traceability

namespace Graph

structure Edge where
  source : String
  target : String
  relationship : String
  direction : Direction
deriving DecidableEq

/-- Edges are ordered by source, target, relationship and direction. -/
instance : Rank Edge :=
  Rank.byKey (fun e => [e.source, e.target, e.relationship, e.direction.name]) fun {e f} h => by
    obtain ⟨_, _, _, d⟩ := e
    obtain ⟨_, _, _, d'⟩ := f
    cases d <;> cases d' <;> simp_all [Direction.name]

/-- The edge of a link that is read in a direction. -/
def Edge.ofLink (index : Relationship.Index) (l : Link) : Direction → Edge
  | .backward => ⟨l.target, l.source, index.opposite l.name, .forward⟩
  | .symmetric =>
      if Rank.before l.target l.source then ⟨l.target, l.source, l.name, .symmetric⟩
      else ⟨l.source, l.target, l.name, .symmetric⟩
  | .forward => ⟨l.source, l.target, l.name, .forward⟩

/-- A relationship name and the number of hops for which it is followed, without a
number always. -/
structure Follow where
  name : String
  limit : Option Nat
deriving DecidableEq

structure Request where
  start : List String
  follow : List Follow
deriving DecidableEq

def Follow.admits (f : Follow) (depth : Nat) : Bool :=
  match f.limit with
  | some limit => depth < limit
  | none => true

/-- The direction of a name; names without direction are read forward. -/
def edgeOf (index : Relationship.Index) (l : Link) : Edge :=
  Edge.ofLink index l ((index.direction? l.name).getD .forward)

/-- The links that lead on from an item reached after `depth` hops. -/
def linksOf (follow : List Follow) (depth : Nat) (item : Item) : List Link :=
  (follow.filter fun f => f.admits depth).flatMap fun f =>
    (item.relatives f.name).map fun relative => ⟨item.tag, relative, f.name⟩

/-- A walk under way: the items still to expand, each with the number of hops to it, that
number for every tag that was reached, and the edges that were read. -/
structure Search where
  queue : List (Item × Nat)
  depths : SortedMap String Nat
  edges : SortedSet Edge

namespace Search

/-- Queues an item, unless it was reached before. -/
def reach (s : Search) (item : Item) (depth : Nat) : Search :=
  if s.depths.contains item.tag then s
  else
    { s with
      queue := s.queue ++ [(item, depth)]
      depths := s.depths.insert item.tag depth }

def start (registry : Registry) (tags : List String) : Search :=
  (tags.filterMap registry.get?).foldl (fun s item => s.reach item 0) ⟨[], ∅, ∅⟩

variable (registry : Registry) (index : Relationship.Index) (follow : List Follow)

/-- Reads a link of an item reached after `depth` hops. -/
def readLink (depth : Nat) (s : Search) (l : Link) : Search :=
  let read := { s with edges := s.edges.insert (edgeOf index l) }
  match registry.get? l.target with
  | some next => read.reach next (depth + 1)
  | none => read

def expand (s : Search) (item : Item) (depth : Nat) : Search :=
  (linksOf follow depth item).foldl (readLink registry index depth) s

/-- Bounds the steps that are left: an item can be queued until it is reached. -/
def pending (s : Search) : Nat :=
  (registry.all.filter fun item => !s.depths.contains item.tag).length + s.queue.length

variable {registry}

theorem pending_reach_le {tag : String} {item : Item} (h : registry.get? tag = some item)
    (s : Search) (depth : Nat) : (s.reach item depth).pending registry ≤ s.pending registry := by
  unfold reach
  split
  · exact Nat.le_refl _
  · rename_i hnew
    have hmem : item ∈ registry.all.filter fun i => !s.depths.contains i.tag :=
      List.mem_filter.mpr ⟨SortedMap.mem_values_of_get? h, by simpa using hnew⟩
    have hlt : ((registry.all.filter fun i => !s.depths.contains i.tag).filter fun i =>
        !decide (i.tag = item.tag)).length <
          (registry.all.filter fun i => !s.depths.contains i.tag).length :=
      List.length_filter_lt_length_iff_exists.mpr ⟨item, hmem, by simp⟩
    simp only [pending, SortedMap.contains_insert, Bool.not_or, ← List.filter_filter,
      List.length_append, List.length_singleton]
    omega

theorem pending_readLink_le (depth : Nat) (s : Search) (l : Link) :
    (readLink registry index depth s l).pending registry ≤ s.pending registry := by
  unfold readLink
  split
  · rename_i next hnext
    exact pending_reach_le hnext _ _
  · exact Nat.le_refl _

theorem pending_expand_le (s : Search) (item : Item) (depth : Nat) :
    (s.expand registry index follow item depth).pending registry ≤ s.pending registry := by
  unfold expand
  induction linksOf follow depth item generalizing s with
  | nil => exact Nat.le_refl _
  | cons l links ih => exact Nat.le_trans (ih _) (pending_readLink_le index depth s l)

variable (registry)

theorem pending_expand_lt {s : Search} {item : Item} {depth : Nat} {queue : List (Item × Nat)}
    (h : s.queue = (item, depth) :: queue) :
    ({ s with queue }.expand registry index follow item depth).pending registry <
      s.pending registry := by
  refine Nat.lt_of_le_of_lt (pending_expand_le index follow _ item depth) ?_
  simp [pending, h]

/-- Expands the items in the order of the queue, until none is left. -/
def explore (s : Search) : Search :=
  match h : s.queue with
  | [] => s
  | (item, depth) :: queue =>
      have := pending_expand_lt registry index follow h
      explore ({ s with queue }.expand registry index follow item depth)
termination_by s.pending registry

end Search

end Graph

/-- The items that a walk reached and the edges that it read, both in order. -/
structure Graph where
  traceables : List Item
  edges : List Graph.Edge
deriving DecidableEq

namespace Graph

def isEmpty (g : Graph) : Bool := g.traceables.isEmpty

/-- The traceables are in the order of their tags. -/
def contains (g : Graph) (tag : String) : Bool :=
  (Rank.search (g.traceables.map Item.tag) tag).isOk

def walk (registry : Registry) (index : Relationship.Index) (request : Request) : Graph :=
  let s := (Search.start registry request.start).explore registry index request.follow
  ⟨s.depths.keys.filterMap registry.get?, s.edges.toList⟩

end Graph

end Traceability
