import Traceability.Text.Blank

/-!
The arguments of one level of a command line: options with values, operands, and the
name of a command, after which the next level begins. A long option takes its value
after an equals sign or as the next argument, a short one also without any sign between.
An argument that starts with a dash is no value on its own, and after two dashes all
arguments are operands.
-/

namespace Traceability.CommandLine

/-- How many values an option takes: one, with one use at most; one at every use; or at
every use all the values up to the next option. -/
inductive Taking where
  | once
  | each
  | several
deriving DecidableEq

structure Choice where
  name : String
  letter : Option Char
  taking : Taking

structure Level where
  choices : List Choice
  operands : Nat
  commands : List String

/-- Why arguments are not read to their end. -/
inductive Stop where
  | help
  | refused
deriving DecidableEq

/-- What has been given: the values at each use of an option, and the operands. -/
structure Given where
  uses : List (String × List String)
  operands : List String

namespace Given

def empty : Given := ⟨[], []⟩

def isUsed (g : Given) (name : String) : Bool := g.uses.any fun u => u.1 == name

/-- All values of an option, in order. -/
def values (g : Given) (name : String) : List String :=
  (g.uses.filter fun u => u.1 == name).flatMap Prod.snd

def value? (g : Given) (name : String) : Option String := (g.values name).head?

end Given

/-- The forms of an argument. -/
inductive Form where
  | separator
  | long (name : String) (value : Option String)
  | short (letters : List Char)
  | plain

def Form.ofArgument (a : String) : Form :=
  match a.toList with
  | ['-', '-'] => .separator
  | '-' :: '-' :: rest =>
      let name := rest.takeWhile (· != '=')
      let value := match rest.drop name.length with
        | _ :: value => some (String.ofList value)
        | [] => none
      .long (String.ofList name) value
  | '-' :: c :: rest => .short (c :: rest)
  | _ => .plain

/-- An option whose values are still being read. -/
structure Pending where
  choice : Choice
  values : List String

/-- The state between two arguments. -/
structure Reading where
  given : Given
  pending : Option Pending

namespace Reading

def start : Reading := ⟨.empty, none⟩

/-- Notes the use of an option with its values. -/
def use (g : Given) (choice : Choice) (values : List String) : Except Stop Given :=
  if values.isEmpty || (choice.taking == .once && g.isUsed choice.name) then .error .refused
  else .ok { g with uses := g.uses ++ [(choice.name, values)] }

/-- Ends the option whose values are being read. -/
def close (r : Reading) : Except Stop Given :=
  match r.pending with
  | none => .ok r.given
  | some p => use r.given p.choice p.values

/-- Whether the next argument that is no option is a value. -/
def awaits (r : Reading) : Bool :=
  match r.pending with
  | none => false
  | some p => p.choice.taking == .several || p.values.isEmpty

/-- Begins an option, with a value if one is attached. -/
def choose (r : Reading) (choice : Choice) (attached : Option String) : Except Stop Reading := do
  let given ← r.close
  match attached with
  | some value => .ok ⟨← use given choice [value], none⟩
  | none => .ok ⟨given, some ⟨choice, []⟩⟩

def addValue (r : Reading) (value : String) : Reading :=
  { r with pending := r.pending.map fun p => { p with values := p.values ++ [value] } }

def addOperand (level : Level) (r : Reading) (operand : String) : Except Stop Reading := do
  let given ← r.close
  if given.operands.length < level.operands then
    .ok ⟨{ given with operands := given.operands ++ [operand] }, none⟩
  else .error .refused

def help (r : Reading) : Stop :=
  match r.close with
  | .ok _ => .help
  | .error stop => stop

def long (level : Level) (r : Reading) (name : String) (attached : Option String) :
    Except Stop Reading :=
  match level.choices.find? fun c => c.name == name with
  | some choice => r.choose choice attached
  | none => .error (if name == "help" && attached.isNone then r.help else .refused)

def short (level : Level) (r : Reading) : List Char → Except Stop Reading
  | [] => .error .refused
  | letter :: rest =>
      match level.choices.find? fun c => c.letter == some letter with
      | some choice =>
          let attached := match rest with
            | [] => none
            | '=' :: value => some (String.ofList value)
            | value => some (String.ofList value)
          r.choose choice attached
      | none => .error (if letter == 'h' then r.help else .refused)

end Reading

/-- Reads the arguments of a level: what is given there, and the command that ends it
with the arguments after it. The flag tells whether two dashes have been read. -/
def read (level : Level) : Bool → Reading → List String →
    Except Stop (Given × Option (String × List String))
  | _, r, [] => r.close.map fun given => (given, none)
  | true, r, a :: rest =>
      match r.addOperand level a with
      | .ok r => read level true r rest
      | .error stop => .error stop
  | false, r, a :: rest =>
      if !r.awaits && level.commands.contains a then
        r.close.map fun given => (given, some (a, rest))
      else
        match Form.ofArgument a with
        | .separator => read level true r rest
        | .long name attached =>
            match r.long level name attached with
            | .ok r => read level false r rest
            | .error stop => .error stop
        | .short letters =>
            match r.short level letters with
            | .ok r => read level false r rest
            | .error stop => .error stop
        | .plain =>
            if r.awaits then read level false (r.addValue a) rest
            else
              match r.addOperand level a with
              | .ok r => read level false r rest
              | .error stop => .error stop

end Traceability.CommandLine
