import Traceability.Yaml.Scan

/-!
The tree of a YAML document. Anchors are numbered by the number of distinct names that
were known where each stands, and a reference means the last node with the number of its
name. A stream holds at most one document.
-/

namespace Traceability.Yaml

inductive Node where
  | scalar (tag : Option String) (plain : Bool) (text : String)
  | sequence (tag : Option String) (items : List Node)
  | mapping (tag : Option String) (entries : List (Node × Node))
  | reference (anchor : Nat)

/-- A document with its anchored nodes by number, and how many marks in the text start
or end one of its nodes. -/
structure Document where
  root : Node
  anchored : List (Nat × Node)
  size : Nat

/-- The state of a reading: the tokens ahead, the handles of tags, the numbers of the
anchors by name, and the nodes that are anchored, by the order of their anchors. -/
structure Reading where
  tokens : List Token
  handles : List (String × String)
  anchors : List (String × Nat)
  numbers : List Nat
  nodes : List (Nat × Node)
  size : Nat

abbrev Read := StateT Reading Option

namespace Read

def peek : Read (Option Token) := return (← get).tokens.head?

def next : Read Unit := modify fun r => { r with tokens := r.tokens.tail }

def count (n : Nat) : Read Unit := modify fun r => { r with size := r.size + n }

/-- Reads a token that must be there. -/
def expect (t : Token) : Read Unit := do
  if (← peek) == some t then next else failure

def peekIsAmong (tokens : List Token) : Read Bool := do
  match ← peek with
  | some t => return tokens.contains t
  | none => return false

/-- Numbers an anchor; the answer is its place among all anchors. -/
def anchor (name : String) : Read Nat := do
  let r ← get
  let number := r.anchors.length
  set { r with
    anchors := (name, number) :: r.anchors.filter (fun (n, _) => n != name)
    numbers := r.numbers ++ [number] }
  return r.numbers.length

def reference (name : String) : Read Node := do
  match (← get).anchors.lookup name with
  | some number => count 1; return .reference number
  | none => failure

/-- The full tag of a handle and a suffix. -/
def resolveTag (handle suffix : String) : Read String := do
  if handle.isEmpty then return suffix
  match (← get).handles.lookup handle with
  | some start => return start ++ suffix
  | none => failure

/-- The anchor and the tag before a node, in either order. -/
def properties : Read (Option String × Option String) := do
  match ← peek with
  | some (.anchor name) =>
      next
      match ← peek with
      | some (.tag handle suffix) => next; return (some name, some (← resolveTag handle suffix))
      | _ => return (some name, none)
  | some (.tag handle suffix) =>
      next
      match ← peek with
      | some (.anchor name) => next; return (some name, some (← resolveTag handle suffix))
      | _ => return (none, some (← resolveTag handle suffix))
  | _ => return (none, none)

/-- Reads a node and keeps it under its anchor, which counts from the node's start. -/
def anchored (name : Option String) (body : Read Node) : Read Node := do
  match name with
  | none => body
  | some name =>
      let place ← anchor name
      let node ← body
      modify fun r => { r with nodes := (place, node) :: r.nodes }
      return node

def emptyScalar (tag : Option String) : Read Node := do
  count 1
  return .scalar tag true ""

/-- A lone mark as tag leaves a scalar without tag. -/
def scalarTag (tag : Option String) : Option String := tag.filter (· != "!")

mutual

/-- Reads a node. Block collections start only where they may stand; a sequence that
is the value of a mapping can do without a deeper indent. -/
def node : Nat → Bool → Bool → Read Node
  | 0, _, _ => failure
  | fuel + 1, block, indentless => do
      if let some (.reference name) ← peek then
        next
        reference name
      else
        let (name, tag) ← properties
        match ← peek with
        | some .blockEntry =>
            if indentless then
              anchored name do count 2; return .sequence tag (← indentlessItems fuel)
            else bare name tag
        | some (.scalar plain text) =>
            next
            anchored name do count 1; return .scalar (scalarTag tag) plain text
        | some .flowSequenceStart =>
            next
            anchored name do count 2; return .sequence tag (← flowItems fuel true)
        | some .flowMappingStart =>
            next
            anchored name do count 2; return .mapping tag (← flowEntries fuel true)
        | some .blockSequenceStart =>
            if block then
              next
              anchored name do count 2; return .sequence tag (← blockItems fuel)
            else bare name tag
        | some .blockMappingStart =>
            if block then
              next
              anchored name do count 2; return .mapping tag (← blockEntries fuel)
            else bare name tag
        | _ => bare name tag

/-- A node of which only an anchor or a tag is written. -/
def bare (name tag : Option String) : Read Node :=
  if name.isSome || tag.isSome then anchored name (emptyScalar tag) else failure

/-- A node, or an empty one where one of some tokens, or the end of the text, follows. -/
def nodeUnless (fuel : Nat) (block indentless : Bool) (tokens : List Token) : Read Node := do
  if ← peekIsAmong tokens then emptyScalar none else node fuel block indentless

def blockItems : Nat → Read (List Node)
  | 0 => failure
  | fuel + 1 => do
      match ← peek with
      | some .blockEntry =>
          next
          let item ← nodeUnless fuel true false [.blockEntry, .blockEnd]
          return item :: (← blockItems fuel)
      | some .blockEnd => next; return []
      | _ => failure

def indentlessItems : Nat → Read (List Node)
  | 0 => failure
  | fuel + 1 => do
      match ← peek with
      | some .blockEntry =>
          next
          let item ← nodeUnless fuel true false [.blockEntry, .key, .value, .blockEnd]
          return item :: (← indentlessItems fuel)
      | _ => return []

def blockEntries : Nat → Read (List (Node × Node))
  | 0 => failure
  | fuel + 1 => do
      let first ← peek
      match first with
      | some .key =>
          next
          let key ← nodeUnless fuel true true [.key, .value, .blockEnd]
          let value ← blockValue fuel
          return (key, value) :: (← blockEntries fuel)
      | some .blockEnd => next; return []
      | _ => failure

def blockValue (fuel : Nat) : Read Node := do
  match ← peek with
  | some .value => next; nodeUnless fuel true true [.key, .value, .blockEnd]
  | _ => emptyScalar none

/-- A comma between the items of a flow collection, which its end can follow. -/
def flowSeparator (first : Bool) : Read Unit := if first then return () else expect .flowEntry

def flowItems : Nat → Bool → Read (List Node)
  | 0, _ => failure
  | fuel + 1, first => do
      if (← peek) == some .flowSequenceEnd then next; return []
      else
        flowSeparator first
        match ← peek with
        | some .flowSequenceEnd => next; return []
        | some .key =>
            next
            count 2
            let pair ← flowPair fuel
            return .mapping none [pair] :: (← flowItems fuel false)
        | _ =>
            let item ← node fuel false false
            return item :: (← flowItems fuel false)

/-- A mapping of one entry without braces. A missing key takes its mark with it. -/
def flowPair (fuel : Nat) : Read (Node × Node) := do
  let key ←
    if ← peekIsAmong [.value, .flowEntry, .flowSequenceEnd] then
      next
      emptyScalar none
    else node fuel false false
  match ← peek with
  | some .value =>
      next
      return (key, ← nodeUnless fuel false false [.flowEntry, .flowSequenceEnd])
  | _ => return (key, ← emptyScalar none)

def flowEntries : Nat → Bool → Read (List (Node × Node))
  | 0, _ => failure
  | fuel + 1, first => do
      if (← peek) == some .flowMappingEnd then next; return []
      else
        flowSeparator first
        match ← peek with
        | some .flowMappingEnd => next; return []
        | some .key =>
            next
            let key ← nodeUnless fuel false false [.value, .flowEntry, .flowMappingEnd]
            let value ← flowValue fuel
            return (key, value) :: (← flowEntries fuel false)
        | _ =>
            let key ← node fuel false false
            let value ← emptyScalar none
            return (key, value) :: (← flowEntries fuel false)

def flowValue (fuel : Nat) : Read Node := do
  match ← peek with
  | some .value => next; nodeUnless fuel false false [.flowEntry, .flowMappingEnd]
  | _ => emptyScalar none

end

def standardHandles : List (String × String) := [("!", "!"), ("!!", "tag:yaml.org,2002:")]

/-- The directives before a document: one version, and each handle once. -/
def directives : Nat → Bool → List (String × String) → Read (List (String × String))
  | 0, _, _ => failure
  | fuel + 1, versioned, handles => do
      match ← peek with
      | some (.version major minor) =>
          if versioned || major != 1 || (minor != 1 && minor != 2) then failure
          next
          directives fuel true handles
      | some (.tagDirective handle start) =>
          if (handles.lookup handle).isSome then failure
          next
          directives fuel versioned (handles ++ [(handle, start)])
      | _ => return handles

def isDocumentMark : Option Token → Bool
  | some (.version _ _) | some (.tagDirective _ _) | some .documentStart | some .documentEnd => true
  | none => true
  | _ => false

def skipEnds : Nat → Read Unit
  | 0 => return ()
  | fuel + 1 => do
      if (← peek) == some .documentEnd then
        next
        skipEnds fuel

/-- The only document, if there is one; only marks of its end may follow it. -/
def document (fuel : Nat) : Read (Option Node) := do
  let first ← peek
  if first.isNone then return none
  let found ←
    match first with
    | some (.version _ _) | some (.tagDirective _ _) | some .documentStart =>
        let handles ← directives fuel false []
        modify fun r => { r with handles := handles ++ standardHandles }
        expect .documentStart
        if isDocumentMark (← peek) then emptyScalar none else node fuel true false
    | _ =>
        modify fun r => { r with handles := standardHandles }
        node fuel true false
  skipEnds fuel
  if (← peek).isSome then failure
  return some found

end Read

/-- The anchored nodes by their numbers: of several with one number the last counts. -/
def Reading.anchored (r : Reading) : List (Nat × Node) :=
  (r.numbers.zipIdx.reverse).filterMap fun (number, place) =>
    (r.nodes.lookup place).map fun node => (number, node)

/-- The document in a text; the text can hold none. -/
def Document.parse? (text : List Char) : Option (Option Document) := do
  let tokens ← tokenize text
  let (root, r) ← (Read.document (4 * tokens.length + 8)).run ⟨tokens, [], [], [], [], 0⟩
  some (root.map fun root => ⟨root, r.anchored, r.size⟩)

end Traceability.Yaml
