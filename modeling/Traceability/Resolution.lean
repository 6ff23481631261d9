import Traceability.Relationship
import Traceability.Registry
import Traceability.Diagnostic

/-!
Relatives are read from the attributes of the declared items: an attribute that is
called like an end of a relationship names the items at its other end. A resolution
starts from the declared items alone and writes every link at both of its ends.
Undeclared tags that are named become placeholders, and each of them is reported
once for every item that names it.
-/

namespace Traceability

/-- A declared item names a tag as its relative. -/
structure Mention where
  referrer : Item
  tag : String
  outgoing : String
  incoming : String

namespace Mention

/-- The names of an item's end and of the other end, for each end it can stand at. -/
def ends (r : Relationship) : List (String × String) :=
  if r.forward = r.backward then [(r.forward, r.backward)]
  else [(r.forward, r.backward), (r.backward, r.forward)]

def ofItem (r : Relationship) (item : Item) : List Mention :=
  (ends r).flatMap fun (outgoing, incoming) =>
    match item.attributes.get? outgoing with
    | some value => (splitTags value).map fun tag => ⟨item, tag, outgoing, incoming⟩
    | none => []

def inRegistry (index : Relationship.Index) (registry : Registry) : List Mention :=
  index.types.flatMap fun r => (registry.all.filter Item.isDeclared).flatMap (ofItem r)

def report (m : Mention) : Diagnostic :=
  Diagnostic.unresolvedReference m.tag m.referrer.tag m.referrer.origin

end Mention

/-- Each mention is a link of the referrer and a link of the tag. -/
def Mention.links (m : Mention) : List Link :=
  [⟨m.referrer.tag, m.tag, m.outgoing⟩, ⟨m.tag, m.referrer.tag, m.incoming⟩]

namespace Registry

def holds (r : Registry) (l : Link) : Bool :=
  match r.get? l.source with
  | some item => item.isRelated l.name l.target
  | none => false

def store (r : Registry) (l : Link) : Registry :=
  (r.ensure l.source).addRelative l.source l.name l.target

/-- Stores links and counts those that were not there before. -/
def storeAll (r : Registry) : List Link → Registry × Nat
  | [] => (r, 0)
  | l :: links =>
      let (stored, count) := (r.store l).storeAll links
      (stored, if r.holds l then count else count + 1)

end Registry

namespace Resolution

structure Summary where
  declared : Nat
  placeholders : Nat
  links : Nat
deriving DecidableEq, Repr

structure Outcome where
  registry : Registry
  reports : List Diagnostic
  summary : Summary

def ofRegistry (index : Relationship.Index) (registry : Registry) : Outcome :=
  let declared := registry.unresolved
  let mentions := Mention.inRegistry index declared
  let dangling := mentions.filter fun m => !declared.declares m.tag
  let complete := (dangling.map Mention.tag).foldl Registry.ensure declared
  let (linked, links) := complete.storeAll (mentions.flatMap Mention.links)
  ⟨linked, (dangling.map Mention.report).eraseDups,
    ⟨declared.size, complete.size - declared.size, links⟩⟩

end Resolution

end Traceability
