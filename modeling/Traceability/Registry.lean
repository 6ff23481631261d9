import Traceability.Item

/-!
The register of items. The first declaration of a tag holds it, and later ones wait
in the order of their arrival. When the declarations of a document are withdrawn,
the first one that waits for a freed tag takes it over.
-/

namespace Traceability

structure Registry where
  items : SortedMap String Item
  shadowed : List Item
deriving DecidableEq, Inhabited

/-- A declaration came too late for its tag. -/
structure DuplicateTag where
  tag : String
  first : Origin
  duplicate : Origin
deriving DecidableEq

def DuplicateTag.message (d : DuplicateTag) : String :=
  "More than one traceable with tag '" ++ d.tag ++ "' found (first declared at " ++
    d.first.text ++ ")"

namespace Registry

def empty : Registry := ⟨∅, []⟩

def get? (r : Registry) (tag : String) : Option Item := r.items.get? tag

def contains (r : Registry) (tag : String) : Bool := r.items.contains tag

def all (r : Registry) : List Item := r.items.values

def tags (r : Registry) : List String := r.items.keys

def size (r : Registry) : Nat := r.items.size

def isEmpty (r : Registry) : Bool := r.items.isEmpty

/-- Whether a declaration holds the tag. -/
def declares (r : Registry) (tag : String) : Bool :=
  match r.get? tag with
  | some item => item.isDeclared
  | none => false

def put (r : Registry) (item : Item) : Registry := { r with items := r.items.insert item.tag item }

/-- A tag without item gets a placeholder. -/
def ensure (r : Registry) (tag : String) : Registry :=
  if r.contains tag then r else r.put (Item.placeholder tag)

def holder? (r : Registry) (tag : String) : Option Origin := (r.get? tag).bind Item.origin

/-- Adds an item. A declared item also replaces a placeholder, and waits if another
declaration holds its tag; a placeholder replaces nothing. -/
def register (r : Registry) (item : Item) : Registry × Option DuplicateTag :=
  match item.origin with
  | none => (if r.contains item.tag then r else r.put item, none)
  | some origin =>
      match r.holder? item.tag with
      | some first =>
          ({ r with shadowed := r.shadowed ++ [item] }, some ⟨item.tag, first, origin⟩)
      | none => (r.put item, none)

/-- Hands a tag to the first declaration that waits for it. -/
def promote (r : Registry) (tag : String) : Registry :=
  match r.shadowed.find? fun item => item.tag == tag with
  | none => r
  | some item =>
      ⟨r.items.insert tag item.withoutRelatives, r.shadowed.eraseP fun item => item.tag == tag⟩

/-- The tags held by declarations in a document. -/
def heldFrom (r : Registry) (document : String) : List String :=
  (r.items.filter fun _ item => item.isFrom document).keys

/-- Withdraws the declarations of a document; the answer lists the tags that they held. -/
def purge (r : Registry) (document : String) : Registry × List String :=
  let held := r.heldFrom document
  let rest : Registry :=
    ⟨r.items.filter fun _ item => !item.isFrom document,
      r.shadowed.filter fun item => !item.isFrom document⟩
  (held.foldl promote rest, held)

/-- Only the declared items, without relatives. -/
def unresolved (r : Registry) : Registry :=
  { r with items := (r.items.filter fun _ item => item.isDeclared).map Item.withoutRelatives }

def addRelative (r : Registry) (tag name relative : String) : Registry :=
  { r with items := r.items.modify tag fun item => item.addRelative name relative }

end Registry

end Traceability
