import Traceability.Session
import Traceability.Folder
import Traceability.Document.Format

/-!
A project keeps a session in step with the source files of a folder. It remembers
the digest of every document, so that a refresh reads only documents that are new or
changed, and withdraws those that are changed or gone.
-/

namespace Traceability

/-- Source files sorted by what has become of them, and the current digests. -/
structure Classification where
  added : List SourceFile
  modified : List SourceFile
  unchanged : List SourceFile
  digests : SortedMap String String

namespace Classification

/-- Compares files with the digests that were known before. -/
def ofFiles (known : SortedMap String String) (files : List SourceFile) : Classification :=
  let digested := files.map fun f => (f, f.digest)
  let having (test : Option String → String → Bool) : List SourceFile :=
    (digested.filter fun (f, digest) => test (known.get? f.document) digest).map Prod.fst
  { added := having fun before _ => before.isNone
    modified := having fun before digest => before.isSome && before != some digest
    unchanged := having fun before digest => before == some digest
    digests := .ofList (digested.map fun (f, digest) => (f.document, digest)) }

def hasChanges (c : Classification) : Bool := !c.added.isEmpty || !c.modified.isEmpty

/-- The known documents that are not among those on disk. -/
def deleted (known : SortedMap String String) (onDisk : List String) : List String :=
  known.keys.filter fun document => !decide (document ∈ onDisk)

end Classification

/-- The digests of the documents as of the last refresh. -/
structure Project where
  known : SortedMap String String

namespace Project

structure Summary where
  added : Nat
  modified : Nat
  removed : Nat
  unchanged : Nat
  declarations : Nat
deriving DecidableEq, Repr

def Summary.hasChanges (s : Summary) : Bool := decide (0 < s.added + s.modified + s.removed)

def empty : Project := ⟨∅⟩

/-- The declarations in a file; one that holds no text or has a fault has none. -/
def declarations (f : SourceFile) : List Document.Declaration :=
  match f.text? with
  | none => []
  | some text =>
      match Document.read f.extension f.document text with
      | .ok found => found
      | .error _ => []

def registerAll (document : String) (s : Session) (found : List Document.Declaration) : Session :=
  found.foldl (fun s d => (s.register d.tag d.attributes ⟨document, d.line⟩).1) s

/-- Registers what a file declares and adds the number of declarations to a count. -/
def registerFile (state : Session × Nat) (f : SourceFile) : Session × Nat :=
  let found := declarations f
  (registerAll f.document state.1 found, state.2 + found.length)

def forgetAll (s : Session) (documents : List String) : Session :=
  documents.foldl (fun s document => (s.forget document).1) s

/-- Brings a session in step with a folder. Links are resolved if anything has changed. -/
def refresh (p : Project) (folder : Folder) (s : Session) : Project × Session × Summary :=
  let files := folder.sources
  let c := Classification.ofFiles p.known files
  let gone := Classification.deleted p.known (files.map SourceFile.document)
  let forgotten := forgetAll s (gone ++ c.modified.map SourceFile.document)
  let (registered, count) := (c.added ++ c.modified).foldl registerFile (forgotten, 0)
  let summary : Summary :=
    ⟨c.added.length, c.modified.length, gone.length, c.unchanged.length, count⟩
  (⟨c.digests⟩, if summary.hasChanges then registered.resolve.1 else registered, summary)

/-- Reads every document of a folder. -/
def load (folder : Folder) (s : Session) : Project × Session × Summary := empty.refresh folder s

end Project

end Traceability
