import Mathlib.Data.List.Induction
import Traceability.Proofs.Graph.Paths

/-!
The queue of a walk. The numbers of hops in it never decrease, and they exceed the one
that is being expanded by one hop at most. So the link by which an item is reached first
ends a shortest path to it, an item is expanded once, at its distance, and when the queue
is empty every tag that a path leads to has been reached.
-/

namespace Traceability.Graph

/-- No relative and no start tag is missing. -/
structure Complete (r : Registry) (q : Request) : Prop where
  start : ∀ tag ∈ q.start, (r.get? tag).isSome = true
  related : ∀ a name b, r.Related a name b → (r.get? b).isSome = true

theorem Complete.isSome_of_reachable {r : Registry} {q : Request} (h : Complete r q)
    {tag : String} (hreachable : Reachable r q tag) : (r.get? tag).isSome = true := by
  obtain ⟨n, hleads⟩ := hreachable
  cases hleads with
  | start hstart => exact h.start tag hstart
  | hop _ _ hrelated => exact h.related _ _ tag hrelated

namespace Search

section Expansions

variable (r : Registry) (index : Relationship.Index) (follow : List Follow)

/-- The items that a search expands, in order, each with the number of hops to it. -/
def expansions (s : Search) : List (Item × Nat) :=
  match h : s.queue with
  | [] => []
  | (item, depth) :: queue =>
      have := pending_expand_lt r index follow h
      (item, depth) :: expansions ({ s with queue }.expand r index follow item depth)
termination_by s.pending r

variable {s : Search}

theorem explore_of_nil (h : s.queue = []) : s.explore r index follow = s := by
  rw [explore]
  split
  · rfl
  · rename_i hqueue
    rw [h] at hqueue
    contradiction

theorem expansions_of_nil (h : s.queue = []) : s.expansions r index follow = [] := by
  rw [expansions]
  split
  · rfl
  · rename_i hqueue
    rw [h] at hqueue
    contradiction

theorem explore_of_cons {item : Item} {depth : Nat} {queue : List (Item × Nat)}
    (h : s.queue = (item, depth) :: queue) :
    s.explore r index follow =
      ({ s with queue }.expand r index follow item depth).explore r index follow := by
  rw [explore]
  split <;> rename_i hqueue <;> rw [h] at hqueue
  · contradiction
  · cases hqueue
    rfl

theorem expansions_of_cons {item : Item} {depth : Nat} {queue : List (Item × Nat)}
    (h : s.queue = (item, depth) :: queue) :
    s.expansions r index follow = (item, depth) ::
      ({ s with queue }.expand r index follow item depth).expansions r index follow := by
  rw [expansions]
  split <;> rename_i hqueue <;> rw [h] at hqueue
  · contradiction
  · cases hqueue
    rfl

end Expansions

variable {r : Registry} {index : Relationship.Index} {q : Request}
variable {s : Search} {item : Item} {depth : Nat}

theorem reach_of_some {d : Nat} (h : s.depths.get? item.tag = some d) :
    s.reach item depth = s := by
  rw [reach, SortedMap.contains, h]
  rfl

theorem reach_of_none (h : s.depths.get? item.tag = none) :
    s.reach item depth = { s with
      queue := s.queue ++ [(item, depth)]
      depths := s.depths.insert item.tag depth } := by
  rw [reach, SortedMap.contains, h]
  rfl

/-- What has been reached keeps its number of hops. -/
theorem get?_reach_of_some {tag : String} {d : Nat} (h : s.depths.get? tag = some d) :
    (s.reach item depth).depths.get? tag = some d := by
  cases hitem : s.depths.get? item.tag with
  | some d' => rw [reach_of_some hitem, h]
  | none =>
    rw [reach_of_none hitem, SortedMap.get?_insert, if_neg, h]
    rintro rfl
    rw [h] at hitem
    contradiction

theorem edges_reach : (s.reach item depth).edges = s.edges := by
  unfold reach
  split <;> rfl

theorem mem_queue_reach {p : Item × Nat} (h : p ∈ (s.reach item depth).queue) :
    p ∈ s.queue ∨ p = (item, depth) := by
  unfold reach at h
  split at h
  · exact Or.inl h
  · exact List.mem_append.mp h |>.imp_right List.mem_singleton.mp

/-- The reached items in the order in which they were reached: each one once, at the end of
a path of its number of hops, which never decreases. -/
structure Recorded (r : Registry) (q : Request) (reached : List (Item × Nat))
    (depths : SortedMap String Nat) : Prop where
  registered : ∀ p ∈ reached, r.get? p.1.tag = some p.1
  leads : ∀ p ∈ reached, Leads r q p.2 p.1.tag
  get?_iff : ∀ tag d, depths.get? tag = some d ↔ ∃ p ∈ reached, p.1.tag = tag ∧ p.2 = d
  nodup : (reached.map fun p => p.1.tag).Nodup
  ordered : reached.Pairwise fun p p' => p.2 ≤ p'.2

namespace Recorded

variable {reached done : List (Item × Nat)} {depths : SortedMap String Nat}

theorem get?_of_mem (h : Recorded r q reached depths) {p : Item × Nat} (hp : p ∈ reached) :
    depths.get? p.1.tag = some p.2 := (h.get?_iff p.1.tag p.2).mpr ⟨p, hp, rfl, rfl⟩

theorem leads_of_get? (h : Recorded r q reached depths) {tag : String} {d : Nat}
    (hget : depths.get? tag = some d) : Leads r q d tag := by
  obtain ⟨p, hp, rfl, rfl⟩ := (h.get?_iff tag d).mp hget
  exact h.leads p hp

/-- An item may follow after no fewer hops. -/
theorem append (h : Recorded r q reached depths) (hnew : depths.get? item.tag = none)
    (hitem : r.get? item.tag = some item) (hleads : Leads r q depth item.tag)
    (hle : ∀ p ∈ reached, p.2 ≤ depth) :
    Recorded r q (reached ++ [(item, depth)]) (depths.insert item.tag depth) := by
  have hne : ∀ p ∈ reached, p.1.tag ≠ item.tag := by
    intro p hp htag
    have hsome := h.get?_of_mem hp
    rw [htag, hnew] at hsome
    contradiction
  refine ⟨?_, ?_, fun tag d => ?_, ?_, ?_⟩
  · simpa [or_imp, forall_and, hitem] using h.registered
  · simpa [or_imp, forall_and, hleads] using h.leads
  · rw [SortedMap.get?_insert]
    split
    · rename_i htag
      subst htag
      constructor
      · intro hd
        cases hd
        exact ⟨(item, depth), by simp, rfl, rfl⟩
      · rintro ⟨p, hp, htag, rfl⟩
        rcases List.mem_append.mp hp with hp | hp
        · exact absurd htag (hne p hp)
        · cases List.mem_singleton.mp hp
          rfl
    · rename_i htag
      rw [h.get?_iff]
      simp [or_and_right, exists_or, Ne.symm htag]
  · rw [List.map_append, List.nodup_append]
    refine ⟨h.nodup, List.nodup_singleton _, ?_⟩
    intro a ha b hb
    obtain ⟨p, hp, rfl⟩ := List.mem_map.mp ha
    rw [List.map_singleton, List.mem_singleton] at hb
    rw [hb]
    exact hne p hp
  · rw [List.pairwise_append]
    refine ⟨h.ordered, List.pairwise_singleton _ _, ?_⟩
    simpa using fun a b hab => hle (a, b) hab

theorem reach (h : Recorded r q (done ++ s.queue) s.depths)
    (hitem : r.get? item.tag = some item) (hleads : Leads r q depth item.tag)
    (hle : ∀ p ∈ done ++ s.queue, p.2 ≤ depth) :
    Recorded r q (done ++ (s.reach item depth).queue) (s.reach item depth).depths := by
  cases hget : s.depths.get? item.tag with
  | some d =>
    rw [reach_of_some hget]
    exact h
  | none =>
    rw [reach_of_none hget, ← List.append_assoc]
    exact h.append hget hitem hleads hle

/-- After that the item has been reached, if not earlier. -/
theorem exists_get?_reach (h : Recorded r q (done ++ s.queue) s.depths) (item : Item)
    (hle : ∀ p ∈ done ++ s.queue, p.2 ≤ depth) :
    ∃ d ≤ depth, (s.reach item depth).depths.get? item.tag = some d := by
  cases hget : s.depths.get? item.tag with
  | some d =>
    obtain ⟨p, hp, -, rfl⟩ := (h.get?_iff item.tag d).mp hget
    exact ⟨p.2, hle p hp, get?_reach_of_some hget⟩
  | none =>
    refine ⟨depth, Nat.le_refl depth, ?_⟩
    rw [reach_of_none hget, SortedMap.get?_insert, if_pos rfl]

end Recorded

/-- A search that is about to begin: the start items are queued, each once and without hops. -/
structure Started (r : Registry) (q : Request) (tags : List String) (s : Search) : Prop where
  recorded : Recorded r q s.queue s.depths
  depth_eq : ∀ p ∈ s.queue, p.2 = 0
  edges_eq : s.edges = ∅
  reached : ∀ tag ∈ tags, s.depths.get? tag = some 0

theorem Started.reach {tags : List String} (h : Started r q tags s)
    (hitem : r.get? item.tag = some item) (hstart : item.tag ∈ q.start) :
    Started r q (tags ++ [item.tag]) (s.reach item 0) := by
  have hrecorded : Recorded r q ([] ++ s.queue) s.depths := h.recorded
  have hle : ∀ p ∈ [] ++ s.queue, p.2 ≤ 0 := fun p hp => Nat.le_of_eq (h.depth_eq p hp)
  refine ⟨hrecorded.reach hitem (Leads.start hstart) hle, ?_, ?_, ?_⟩
  · intro p hp
    rcases mem_queue_reach hp with hp | rfl
    · exact h.depth_eq p hp
    · rfl
  · rw [edges_reach, h.edges_eq]
  · intro tag htag
    rcases List.mem_append.mp htag with htag | htag
    · exact get?_reach_of_some (h.reached tag htag)
    · obtain ⟨d, hd, hget⟩ := hrecorded.exists_get?_reach item hle
      rw [List.mem_singleton.mp htag, hget, Nat.le_zero.mp hd]

theorem started_start (hkeyed : r.Keyed) (hcomplete : Complete r q) {tags : List String}
    (htags : ∀ tag ∈ tags, tag ∈ q.start) : Started r q tags (Search.start r tags) := by
  induction tags using List.reverseRecOn with
  | nil =>
    refine ⟨⟨?_, ?_, ?_, List.nodup_nil, List.Pairwise.nil⟩, ?_, rfl, ?_⟩
    all_goals simp [Search.start]
  | append_singleton tags tag ih =>
    have hstart : tag ∈ q.start := htags tag (by simp)
    obtain ⟨item, hitem⟩ := Option.isSome_iff_exists.mp (hcomplete.start tag hstart)
    obtain rfl : item.tag = tag := hkeyed tag item hitem
    have hstep : Search.start r (tags ++ [item.tag]) = (Search.start r tags).reach item 0 := by
      simp [Search.start, hitem]
    rw [hstep]
    exact (ih fun t ht => htags t (List.mem_append_left _ ht)).reach hitem hstart

/-- A search under way. The items in `done` were expanded, the last one after `depth` hops,
and the links in `read` were read. -/
structure Explored (r : Registry) (index : Relationship.Index) (q : Request)
    (done : List (Item × Nat)) (read : List Link) (depth : Nat) (s : Search) : Prop where
  recorded : Recorded r q (done ++ s.queue) s.depths
  depth_le : ∀ p ∈ s.queue, depth ≤ p.2
  le_succ : ∀ p ∈ done ++ s.queue, p.2 ≤ depth + 1
  start : ∀ tag ∈ q.start, s.depths.get? tag = some 0
  found : ∀ l ∈ read, ∃ d d',
    s.depths.get? l.source = some d ∧ s.depths.get? l.target = some d' ∧ d' ≤ d + 1
  mem_edges : ∀ e, e ∈ s.edges.toList ↔ ∃ l ∈ read, edgeOf index l = e

namespace Explored

variable {done : List (Item × Nat)} {read : List Link}

/-- The next item of the queue becomes the one that is expanded. -/
theorem pop (h : Explored r index q done read depth s) {d : Nat} {queue : List (Item × Nat)}
    (hqueue : s.queue = (item, d) :: queue) :
    Explored r index q (done ++ [(item, d)]) read d { s with queue } := by
  have hsame : done ++ [(item, d)] ++ queue = done ++ s.queue := by
    rw [hqueue, List.append_assoc, List.singleton_append]
  have hlow : depth ≤ d := h.depth_le (item, d) (by simp [hqueue])
  refine ⟨?_, ?_, ?_, h.start, h.found, h.mem_edges⟩
  · rw [hsame]
    exact h.recorded
  · have hordered := (List.pairwise_append.mp h.recorded.ordered).2.1
    rw [hqueue] at hordered
    exact (List.pairwise_cons.mp hordered).1
  · rw [hsame]
    intro p hp
    have hle := h.le_succ p hp
    omega

/-- A link of the item that is expanded leads to an item that is queued now or was reached
after at most as many hops. -/
theorem readLink (hkeyed : r.Keyed) (hcomplete : Complete r q)
    (h : Explored r index q done read depth s) {l : Link}
    (hsource : s.depths.get? l.source = some depth) (hn : (depth : ℕ∞) < hops l.name q.follow)
    (hrelated : r.Related l.source l.name l.target) :
    Explored r index q done (read ++ [l]) depth (s.readLink r index depth l) := by
  obtain ⟨next, hnext⟩ := Option.isSome_iff_exists.mp (hcomplete.related _ _ _ hrelated)
  have htag : next.tag = l.target := hkeyed l.target next hnext
  let read : Search := { s with edges := s.edges.insert (edgeOf index l) }
  have hstep : s.readLink r index depth l = read.reach next (depth + 1) := by
    rw [Search.readLink, hnext]
  have hrecorded : Recorded r q (done ++ read.queue) read.depths := h.recorded
  have hleads : Leads r q (depth + 1) next.tag := by
    rw [htag]
    exact Leads.hop (h.recorded.leads_of_get? hsource) hn hrelated
  rw [hstep]
  refine ⟨hrecorded.reach (by rwa [htag]) hleads h.le_succ, ?_, ?_, ?_, ?_, ?_⟩
  · intro p hp
    rcases mem_queue_reach hp with hp | rfl
    · exact h.depth_le p hp
    · exact Nat.le_succ depth
  · intro p hp
    rcases List.mem_append.mp hp with hp | hp
    · exact h.le_succ p (List.mem_append_left _ hp)
    · rcases mem_queue_reach hp with hp | rfl
      · exact h.le_succ p (List.mem_append_right _ hp)
      · exact Nat.le_refl _
  · intro tag hstart
    exact get?_reach_of_some (h.start tag hstart)
  · intro l' hl'
    rcases List.mem_append.mp hl' with hl' | hl'
    · obtain ⟨d, d', hd, hd', hle⟩ := h.found l' hl'
      exact ⟨d, d', get?_reach_of_some hd, get?_reach_of_some hd', hle⟩
    · -- nothing has been reached after more than `depth + 1` hops, so neither has the target
      obtain rfl := List.mem_singleton.mp hl'
      obtain ⟨d', hle, hd'⟩ := hrecorded.exists_get?_reach next h.le_succ
      rw [htag] at hd'
      exact ⟨depth, d', get?_reach_of_some hsource, hd', hle⟩
  · intro e
    rw [edges_reach, SortedSet.mem_insert, h.mem_edges]
    simp [or_and_right, exists_or, or_comm, eq_comm]

/-- The links of the item that is expanded are read one after the other. -/
theorem readLinks (hkeyed : r.Keyed) (hcomplete : Complete r q)
    (h : Explored r index q done read depth s) (hmem : (item, depth) ∈ done) (links : List Link)
    (hlinks : ∀ l ∈ links, l ∈ linksOf q.follow depth item) :
    Explored r index q done (read ++ links) depth
      (links.foldl (Search.readLink r index depth) s) := by
  induction links generalizing read s with
  | nil =>
    rw [List.append_nil]
    exact h
  | cons l links ih =>
    obtain ⟨hsource, hn, hrelative⟩ :=
      (mem_linksOf q.follow depth item l).mp (hlinks l List.mem_cons_self)
    have hdone : (item, depth) ∈ done ++ s.queue := List.mem_append_left _ hmem
    have hitem : r.get? l.source = some item := by
      rw [hsource]
      exact h.recorded.registered _ hdone
    have hdepth : s.depths.get? l.source = some depth := by
      rw [hsource]
      exact h.recorded.get?_of_mem hdone
    have hnext := h.readLink hkeyed hcomplete hdepth hn ⟨item, hitem, hrelative⟩
    have hrest := ih hnext fun l' hl' => hlinks l' (List.mem_cons_of_mem _ hl')
    rwa [List.append_assoc, List.singleton_append] at hrest

theorem expand (hkeyed : r.Keyed) (hcomplete : Complete r q)
    (h : Explored r index q done read depth s) {d : Nat} {queue : List (Item × Nat)}
    (hqueue : s.queue = (item, d) :: queue) :
    Explored r index q (done ++ [(item, d)]) (read ++ linksOf q.follow d item) d
      (Search.expand r index q.follow { s with queue } item d) :=
  (h.pop hqueue).readLinks hkeyed hcomplete (by simp) _ fun _ hl => hl

/-- A search ends, and until then it reads the links of the items that it expands. -/
theorem explore (hkeyed : r.Keyed) (hcomplete : Complete r q)
    (h : Explored r index q done read depth s) :
    ∃ d, Explored r index q (done ++ s.expansions r index q.follow)
        (read ++ (s.expansions r index q.follow).flatMap fun p => linksOf q.follow p.2 p.1) d
        (s.explore r index q.follow) ∧
      (s.explore r index q.follow).queue = [] := by
  induction s using Search.explore.induct r index q.follow generalizing done read depth with
  | case1 s hqueue =>
    rw [explore_of_nil r index q.follow hqueue, expansions_of_nil r index q.follow hqueue,
      List.flatMap_nil, List.append_nil, List.append_nil]
    exact ⟨depth, h, hqueue⟩
  | case2 s item d queue hqueue _ ih =>
    rw [explore_of_cons r index q.follow hqueue, expansions_of_cons r index q.follow hqueue,
      List.flatMap_cons, List.append_cons, ← List.append_assoc]
    exact ih (h.expand hkeyed hcomplete hqueue)

theorem of_started (h : Started r q q.start s) : Explored r index q [] [] 0 s where
  recorded := h.recorded
  depth_le p _ := Nat.zero_le p.2
  le_succ p hp := by
    rw [h.depth_eq p hp]
    exact Nat.zero_le 1
  start := h.reached
  found := by simp
  mem_edges := by simp [h.edges_eq, SortedSet.mem_empty]

section End

variable (h : Explored r index q done (done.flatMap fun p => linksOf q.follow p.2 p.1) depth s)
variable (hend : s.queue = [])
include h hend

theorem get?_depths_iff (tag : String) (d : Nat) :
    s.depths.get? tag = some d ↔ ∃ p ∈ done, p.1.tag = tag ∧ p.2 = d := by
  rw [h.recorded.get?_iff, hend, List.append_nil]

/-- A tag that a path leads to has been reached after at most as many hops. -/
theorem exists_depth_le {n : Nat} {tag : String} (hleads : Leads r q n tag) :
    ∃ d ≤ n, s.depths.get? tag = some d := by
  induction hleads with
  | start hstart => exact ⟨0, Nat.le_refl 0, h.start _ hstart⟩
  | @hop n a name b _ hn hrelated ih =>
    obtain ⟨d, hd, hget⟩ := ih
    obtain ⟨p, hp, rfl, rfl⟩ := (h.get?_depths_iff hend a d).mp hget
    have hitem := h.recorded.registered p (List.mem_append_left _ hp)
    obtain ⟨item, hsame, hrelative⟩ := hrelated
    obtain rfl : p.1 = item := Option.some.inj (hitem.symm.trans hsame)
    -- the relationship is still followed from the item, as it was reached no later
    have hlt : (p.2 : ℕ∞) < hops name q.follow := (Nat.cast_le.mpr hd).trans_lt hn
    have hlink : ⟨p.1.tag, b, name⟩ ∈ linksOf q.follow p.2 p.1 :=
      (mem_linksOf ..).mpr ⟨rfl, hlt, hrelative⟩
    obtain ⟨m, m', hm, hm', hle⟩ := h.found _ (List.mem_flatMap.mpr ⟨p, hp, hlink⟩)
    obtain rfl : p.2 = m := Option.some.inj (hget.symm.trans hm)
    exact ⟨m', hle.trans (Nat.succ_le_succ hd), hm'⟩

theorem depth_eq_distance {p : Item × Nat} (hp : p ∈ done) : distance r q p.1.tag = p.2 := by
  have hmem : p ∈ done ++ s.queue := List.mem_append_left _ hp
  have hleads := h.recorded.leads p hmem
  obtain ⟨d, hle, hget⟩ := h.exists_depth_le hend (Reachable.leads_distance ⟨p.2, hleads⟩)
  rw [h.recorded.get?_of_mem hmem, Option.some.injEq] at hget
  exact Nat.le_antisymm (distance_le hleads) (hget ▸ hle)

/-- The expanded items are those that a path leads to, each at its distance. -/
theorem mem_done_iff (item : Item) (d : Nat) :
    (item, d) ∈ done ↔ r.get? item.tag = some item ∧ Reachable r q item.tag ∧
      distance r q item.tag = d := by
  constructor
  · intro hp
    have hmem : (item, d) ∈ done ++ s.queue := List.mem_append_left _ hp
    exact ⟨h.recorded.registered _ hmem, ⟨d, h.recorded.leads _ hmem⟩,
      h.depth_eq_distance hend hp⟩
  · rintro ⟨hitem, ⟨n, hleads⟩, rfl⟩
    obtain ⟨d, -, hget⟩ := h.exists_depth_le hend hleads
    obtain ⟨p, hp, htag, rfl⟩ := (h.get?_depths_iff hend item.tag d).mp hget
    have hsame := h.recorded.registered p (List.mem_append_left _ hp)
    rw [htag, hitem, Option.some.injEq] at hsame
    subst hsame
    rwa [h.depth_eq_distance hend hp]

theorem mem_keys_iff (tag : String) : tag ∈ s.depths.keys ↔ Reachable r q tag := by
  rw [SortedMap.mem_keys, Option.isSome_iff_exists]
  constructor
  · rintro ⟨d, hget⟩
    exact ⟨d, h.recorded.leads_of_get? hget⟩
  · rintro ⟨n, hleads⟩
    obtain ⟨d, -, hget⟩ := h.exists_depth_le hend hleads
    exact ⟨d, hget⟩

theorem mem_edges_iff (hkeyed : r.Keyed) (e : Edge) :
    e ∈ s.edges.toList ↔ ∃ v name w, Reachable r q v ∧
      (distance r q v : ℕ∞) < hops name q.follow ∧ r.Related v name w ∧
      edgeOf index ⟨v, w, name⟩ = e := by
  rw [h.mem_edges]
  simp only [List.mem_flatMap, Prod.exists, h.mem_done_iff hend, mem_linksOf]
  constructor
  · rintro ⟨⟨v, w, name⟩, ⟨item, d, ⟨hitem, hreachable, rfl⟩, rfl, hn, hrelative⟩, hedge⟩
    exact ⟨item.tag, name, w, hreachable, hn, ⟨item, hitem, hrelative⟩, hedge⟩
  · rintro ⟨v, name, w, hreachable, hn, ⟨item, hitem, hrelative⟩, hedge⟩
    obtain rfl : item.tag = v := hkeyed v item hitem
    exact ⟨⟨item.tag, w, name⟩, ⟨item, _, ⟨hitem, hreachable, rfl⟩, rfl, hn, hrelative⟩, hedge⟩

end End

end Explored

end Search

end Traceability.Graph
