import Traceability.Path
import Traceability.Digest
import Traceability.Error
import Traceability.Sorted.Map

/-!
A folder is a finite set of files by the names on the way to them; a folder inside
it exists as long as a file lies below it. The source files are those whose name
ends in one of a few extensions, and each is known as a document by its path. Names
are Unicode text: files whose names are other bytes have no place in a folder.
-/

namespace Traceability

structure Folder where
  files : SortedMap (List String) ByteArray

namespace Folder

def empty : Folder := ⟨∅⟩

def write (f : Folder) (path : List String) (content : ByteArray) : Folder :=
  ⟨f.files.insert path content⟩

def delete (f : Folder) (path : List String) : Folder := ⟨f.files.erase path⟩

def ofList (files : List (List String × ByteArray)) : Folder := ⟨.ofList files⟩

def isFile (f : Folder) (path : List String) : Bool := f.files.contains path

/-- The whole folder, or one with a file below it. -/
def isFolder (f : Folder) (path : List String) : Bool :=
  path.isEmpty ||
    f.files.keys.any fun file => path.isPrefixOf file && path.length < file.length

/-- One step of a walk along a written path, from a place that exists. -/
def step (f : Folder) (place : List String) (piece : List Char) :
    Except Unreadable (List String) :=
  if f.isFile place then .error .notFolder
  else if Path.staysPut piece then .ok place
  else if piece == ['.', '.'] then
    if place.isEmpty then .error .notFound else .ok place.dropLast
  else
    let next := place ++ [String.ofList piece]
    if f.isFile next || f.isFolder next then .ok next else .error .notFound

/-- The place that a path names, read from the whole folder. Nothing outside it exists. -/
def locate (f : Folder) (path : List Char) : Except Unreadable (List String) :=
  if path.isEmpty || Path.isAbsolute path then .error .notFound
  else (Path.pieces path).foldlM f.step []

def read (f : Folder) (path : List Char) : Except Unreadable ByteArray :=
  match f.locate path with
  | .error e => .error e
  | .ok place =>
      match f.files.get? place with
      | some content => .ok content
      | none => .error .isFolder

/-- The files below a place, by the rest of the way to them. -/
def below (f : Folder) (place : List String) : Folder :=
  ofList ((f.files.entries.filter fun (file, _) => place.isPrefixOf file).map
    fun (file, content) => (file.drop place.length, content))

end Folder

/-- The document by which a source file is known, its extension, and its bytes. -/
structure SourceFile where
  document : String
  extension : String
  content : ByteArray

namespace SourceFile

def extensions : List String := ["rst", "txt", "md", "yaml", "yml"]

/-- The extension of a source file's name, in lower case. Capitals outside ASCII have
no extension of a source file as their lower case. -/
def extension? (name : List Char) : Option String :=
  let lower := String.ofList ((Path.extensionOf name).map Char.toLower)
  if lower ∈ extensions then some lower else none

/-- Whether a path ends in the name of a source file. -/
def isNamed (path : List Char) : Bool :=
  match Path.fileName? path with
  | some name => (extension? name).isSome
  | none => false

/-- A slash parts the names of a document, and a backslash counts as one. -/
def documentOf (path : List String) : String :=
  String.ofList ((Text.joined "/" path).toList.map fun c => if c == '\\' then '/' else c)

def ofFile (path : List String) (content : ByteArray) : Option SourceFile :=
  match path.getLast? with
  | none => none
  | some name =>
      (extension? name.toList).map fun extension => ⟨documentOf path, extension, content⟩

def size (f : SourceFile) : Nat := f.content.size

def digest (f : SourceFile) : String := Digest.ofBytes f.content.toList

/-- The text of a file that holds one. -/
def text? (f : SourceFile) : Option String := String.fromUTF8? f.content

end SourceFile

/-- The source files in the order of their documents. -/
def Folder.sources (f : Folder) : List SourceFile :=
  (f.files.entries.filterMap fun (path, content) => SourceFile.ofFile path content).mergeSort
    fun a b => !Rank.before b.document a.document

end Traceability
