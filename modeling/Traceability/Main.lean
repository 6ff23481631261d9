import Traceability.CommandLine.Run

/-!
The program: it runs in the surroundings of the process, reads the source files below
the configured folder, and writes the answer.
-/

namespace Traceability.CommandLine.Program

/-- A path of the process; an absolute one stands for itself. -/
def placed (path : List Char) := do
  return (← IO.currentDir) / String.ofList path

def reasonOf : IO.Error → Unreadable
  | .noFileOrDirectory _ _ _ => .notFound
  | .inappropriateType _ _ _ => .notFolder
  | e => .other (toString e)

def presence? (path : List Char) : IO (Option Presence) := do
  if path.isEmpty then return none
  let place ← placed path
  if ← place.isDir then return some .folder
  return if ← place.pathExists then some .file else none

def read (path : List Char) : IO (Except Unreadable ByteArray) := do
  if path.isEmpty then return .error .notFound
  let place ← placed path
  if ← place.isDir then return .error .isFolder
  try return .ok (← IO.FS.readBinFile place)
  catch e => return .error (reasonOf e)

/-- The content of a source file; one that cannot be read counts as one without text. -/
def content (path : List Char) : IO ByteArray := do
  match ← read path with
  | .ok bytes => return bytes
  | .error _ => return ⟨#[0xFF]⟩

def namesIn (path : List Char) : IO (List String) := do
  try return ((← (← placed path).readDir).toList.map fun entry => entry.fileName)
  catch _ => return []

/-- The source files below a folder, by the names on the way to them. -/
partial def filesBelow (path : List Char) (way : List String) :
    IO (List (List String × ByteArray)) := do
  let found ← (← namesIn path).mapM fun name => do
    let inner := Path.join path name.toList
    match ← presence? inner with
    | some .folder => filesBelow inner (way ++ [name])
    | some .file =>
        if SourceFile.isNamed name.toList then return [(way ++ [name], ← content inner)]
        else return []
    | none => return []
  return found.flatten

/-- The settings file of the nearest folder that has one, from a folder upwards. -/
partial def settingsFrom (folder : List Char) : IO (Option ByteArray) := do
  let path := Path.join folder ".env".toList
  match ← presence? path with
  | some .file => return (← read path).toOption
  | _ =>
      match Path.parent? folder with
      | some parent => settingsFrom parent
      | none => return none

def surroundings : Surroundings IO where
  valueOf name := IO.getEnv name
  settings? := do settingsFrom (← IO.currentDir).toString.toList
  read := read
  presence? := presence?
  folder path := return Folder.ofList (← filesBelow path [])

end Traceability.CommandLine.Program

def main (arguments : List String) : IO UInt32 := do
  let answer ← Traceability.CommandLine.run Traceability.CommandLine.Program.surroundings arguments
  (← IO.getStdout).putStr answer.output
  (← IO.getStderr).putStr answer.complaint
  return answer.status.toUInt32
