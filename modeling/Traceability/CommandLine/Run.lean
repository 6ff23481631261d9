import Traceability.CommandLine.Invocation
import Traceability.CommandLine.Setting
import Traceability.Project
import Traceability.View.Format

/-!
Runs the program in given surroundings, which answer questions on variables, files and
folders. An answer has a status: zero, one for a failure and for a check that finds
problems, two for arguments that are no invocation.
-/

namespace Traceability.CommandLine

/-- What stands at a path. -/
inductive Presence where
  | file
  | folder
deriving DecidableEq

/-- What a run can learn from around it. The settings file need not exist. -/
structure Surroundings (m : Type → Type) where
  valueOf : String → m (Option String)
  settings? : m (Option ByteArray)
  read : List Char → m (Except Unreadable ByteArray)
  presence? : List Char → m (Option Presence)
  folder : List Char → m Folder

/-- Surroundings that consist of one folder and some variables. -/
def Surroundings.ofFolder (f : Folder) (environment : SortedMap String String) : Surroundings Id where
  valueOf name := environment.get? name
  settings? := f.files.get? [".env"]
  read path := f.read path
  presence? path :=
    match f.locate path with
    | .ok place => some (if f.isFile place then .file else .folder)
    | .error _ => none
  folder path :=
    match f.locate path with
    | .ok place => f.below place
    | .error _ => .empty

structure Answer where
  status : Nat
  output : String
  complaint : String

/-- A message with what caused it, and what caused that. -/
structure Failure where
  message : String
  causes : List String

namespace Failure

def ofError (e : Error) : Failure := ⟨e.message, []⟩

/-- A text below a heading: later lines stand under the first. -/
def indented (first later : String) (text : String) : String :=
  first ++ Text.joined ("\n" ++ later)
    ((Text.split (· == '\n') text.toList).map String.ofList)

def numbered : Nat → List String → List String
  | _, [] => []
  | n, cause :: rest =>
      let number := toString n
      let blanks := String.ofList (List.replicate (5 - number.length) ' ')
      indented (blanks ++ number ++ ": ") "       " cause :: numbered (n + 1) rest

/-- Several causes are numbered. -/
def causeLines : List String → List String
  | [cause] => [indented "    " "    " cause]
  | causes => numbered 0 causes

def text (f : Failure) : String :=
  let heading := "Error: " ++ f.message
  if f.causes.isEmpty then heading
  else heading ++ "\n\nCaused by:\n" ++ Text.joined "\n" (causeLines f.causes)

end Failure

def usage : String :=
  View.ofLines
    ["Usage: traceables [OPTIONS] <COMMAND>",
      "",
      "Commands:",
      "  check   Report duplicate tags, unresolved references and invalid attribute names",
      "  list    List items, with --filter EXPRESSION and --attributes NAMES",
      "  show    Show the item with a TAG",
      "  matrix  Show the matrix of a RELATIONSHIP, with --filter-primaries EXPRESSION,",
      "          --filter-secondaries EXPRESSION, --max-primaries N, --max-secondaries N",
      "  graph   Show what is reached from --start TAGS by --relationship NAME[:DEPTH]",
      "  help    Print this text",
      "",
      "Options:",
      "  -c, --config FILE    Configuration file",
      "  -f, --format FORMAT  Output format: text, json or dot"]

section Run

variable {m : Type → Type} [Monad m] (host : Surroundings m)

/-- The value of a variable: that of the surroundings counts before a setting. -/
def lookup (settings : SortedMap String String) (name : String) : m (Option String) := do
  match ← host.valueOf name with
  | some value => pure (some value)
  | none => pure (settings.get? name)

def pieceText (settings : SortedMap String String) : Piece → m String
  | .char c => pure (String.singleton c)
  | .variable name => do pure ((← lookup host settings name).getD "")

/-- Adds a setting, unless its name has a value already. -/
def addSetting (settings : SortedMap String String) (s : Setting) :
    m (SortedMap String String) := do
  let texts ← s.value.mapM (pieceText host settings)
  pure (if settings.contains s.name then settings else settings.insert s.name (String.join texts))

def settings : m (SortedMap String String) := do
  match ← host.settings? with
  | some content => (Setting.ofBytes content).foldlM (addSetting host) ∅
  | none => pure ∅

def configurationVariable : String := "TRACEABLES_CONFIG"

def standardFile : String := "traceables.toml"

/-- The path of the configuration file: an option counts before a variable. -/
def configurationPath (chosen : Option String) : m String := do
  let settings ← settings host
  match chosen with
  | some path => pure path
  | none => do pure ((← lookup host settings configurationVariable).getD standardFile)

/-- Reads a configuration file. Its source folder lies beside it. -/
def readConfiguration (path : String) : m (Except Failure Configuration) := do
  match ← host.read path.toList with
  | .error reason => pure (.error ⟨"Failed to read config file: " ++ path, [reason.message]⟩)
  | .ok content =>
      match String.fromUTF8? content with
      | none =>
          pure (.error ⟨"Failed to read config file: " ++ path, [Unreadable.notText.message]⟩)
      | some text =>
          match Configuration.read text with
          | .error e =>
              pure (.error ⟨"Failed to parse " ++ path,
                [e.message, "the text describes no configuration"]⟩)
          | .ok c =>
              let beside := (Path.parent? path.toList).getD []
              pure (.ok { c with
                sourceFolder := String.ofList (Path.join beside c.sourceFolder.toList) })

/-- The session of a configuration that can be used: with a source folder, consistent
relationships and room for filters. -/
def usableSession (c : Configuration) : m (Except Failure Session) := do
  match ← host.presence? c.sourceFolder.toList with
  | none =>
      pure (.error ⟨"source_folder path does not exist: " ++ c.sourceFolder ++
        ". Set source_folder in traceables.toml to your docs directory.", []⟩)
  | some .file =>
      pure (.error ⟨"source_folder must be a directory, not a file: " ++ c.sourceFolder, []⟩)
  | some .folder =>
      pure <|
        match c.session with
        | .error e => .error ⟨"Invalid [[relationships]] declarations", [e.message]⟩
        | .ok session =>
            if c.cacheCapacity = 0 then
              .error ⟨"filter.cache_capacity must be greater than 0", []⟩
            else .ok session

/-- A check fails if there is a problem to report. -/
def status (s : Session) : Command → Nat
  | .check => if s.diagnostics.all.isEmpty then 0 else 1
  | _ => 0

/-- The answer to a command by a session that has read its documents. -/
def respond (c : Configuration) (s : Session) (i : Invocation) : Except Failure Answer :=
  let shown := do
    let view ← (s.view (i.command.request c)).2
    view.render c.styles i.format
  match shown with
  | .error e => .error (.ofError e)
  | .ok text =>
      .ok ⟨status s i.command, String.ofList (Text.trimEnd text.toList) ++ "\n", ""⟩

def answer (i : Invocation) : m (Except Failure Answer) := do
  match ← readConfiguration host (← configurationPath host i.configuration) with
  | .error failure => pure (.error failure)
  | .ok c =>
      match ← usableSession host c with
      | .error failure => pure (.error failure)
      | .ok session =>
          let folder ← host.folder c.sourceFolder.toList
          pure (respond c (Project.load folder session).2.1 i)

/-- Runs the program with its arguments. -/
def run (arguments : List String) : m Answer := do
  match Invocation.ofArguments arguments with
  | .error .help => pure ⟨0, usage, ""⟩
  | .error .refused => pure ⟨2, "", usage⟩
  | .ok invocation =>
      match ← answer host invocation with
      | .ok a => pure a
      | .error failure => pure ⟨1, "", failure.text ++ "\n"⟩

end Run

end Traceability.CommandLine
