import Traceability.Text.Blank
import Traceability.Text.Alphanumeric
import Traceability.Number.Numeral

/-!
Tokens of filter texts and their scanner. A line feed or a semicolon is a token of
its own, which separates filters; other blanks only part tokens. Each token keeps
its characters and its place, counted in bytes of UTF-8.
-/

namespace Traceability.Filter

open Text

inductive Sign where
  | eq | ne | lt | le | gt | ge
deriving DecidableEq, Repr

inductive Token where
  | identifier (name : String)
  | number (value : Binary64)
  | text (value : String)
  | openList
  | closeList
  | comma
  | separator
  | sign (sign : Sign)
  | and
  | or
  | not
  | within
deriving DecidableEq

structure Lexeme where
  token : Token
  offset : Nat
  characters : List Char
deriving DecidableEq

def Lexeme.text (l : Lexeme) : String := String.ofList l.characters

/-- What is wrong with a text that is no filter. -/
inductive Fault where
  | unexpectedCharacter (c : Char)
  | unterminatedText
  | gluedToken (lexeme : String) (next : Char)
  | empty
  | severalFilters
  | severalComparators
  | missingComparator
  | missingIn
  | invalidOperator (word : String)
  | unexpectedOperator (lexeme : String)
  | missingValue
  | unexpectedValue (lexeme : String)
  | unexpectedInList (lexeme : String)
  | unterminatedList
  | unexpectedAfterComparison (lexeme : String)
deriving DecidableEq

def Fault.message : Fault → String
  | unexpectedCharacter c => "Unexpected character '" ++ c.toString ++ "'"
  | unterminatedText => "Unterminated string literal"
  | gluedToken lexeme next => "Invalid token '" ++ lexeme ++ next.toString ++ "'"
  | empty => "Filter invalid because it is empty"
  | severalFilters => "Filter invalid because it has multiple expressions"
  | severalComparators => "Filter doesn't support multiple comparators"
  | missingComparator => "Filter term must be a comparison"
  | missingIn => "Expected 'in' after 'not'"
  | invalidOperator word => "Invalid operator '" ++ word ++ "'"
  | unexpectedOperator lexeme => "Unexpected '" ++ lexeme ++ "'; expected a comparison operator"
  | missingValue => "Unexpected end of filter expression"
  | unexpectedValue lexeme => "Unexpected '" ++ lexeme ++ "'; expected a value"
  | unexpectedInList lexeme => "Unexpected '" ++ lexeme ++ "' in list"
  | unterminatedList => "Unterminated list"
  | unexpectedAfterComparison lexeme =>
      "Unexpected '" ++ lexeme ++ "' after comparison; expected 'and' or 'or'"

def isWordStart (c : Char) : Bool := isAsciiLetter c || c == '_'

def isWordCharacter (c : Char) : Bool := isWordStart c || isDigit c

/-- Names that a filter can read: an ASCII letter or underscore, then also digits. -/
def isIdentifier : List Char → Bool
  | [] => false
  | c :: rest => isWordStart c && rest.all isWordCharacter

def ofWord (word : String) : Token :=
  if word == "and" then .and
  else if word == "or" then .or
  else if word == "not" then .not
  else if word == "in" then .within
  else .identifier word

/-- The token of a mark, with the number of characters after its first. -/
def mark? : Char → List Char → Option (Token × Nat)
  | '[', _ => some (.openList, 0)
  | ']', _ => some (.closeList, 0)
  | ',', _ => some (.comma, 0)
  | '=', '=' :: _ => some (.sign .eq, 1)
  | '!', '=' :: _ => some (.sign .ne, 1)
  | '<', '=' :: _ => some (.sign .le, 1)
  | '<', _ => some (.sign .lt, 0)
  | '>', '=' :: _ => some (.sign .ge, 1)
  | '>', _ => some (.sign .gt, 0)
  | _, _ => none

def unescaped (c : Char) : Char :=
  if c == 'n' then '\n' else if c == 't' then '\t' else c

/-- Reads up to the closing quote: the value, and the number of characters read. -/
def readText (quote : Char) : List Char → Option (List Char × Nat)
  | [] => none
  | c :: rest =>
      if c == quote then some ([], 1)
      else if c == '\\' then
        match rest with
        | [] => none
        | e :: rest => (readText quote rest).map fun (v, n) => (unescaped e :: v, n + 2)
      else if c == '\n' then none
      else (readText quote rest).map fun (v, n) => (c :: v, n + 1)

/-- An exponent that has digits, at the start of a text. -/
def leadingExponent : List Char → List Char
  | c :: rest =>
      if c == 'e' || c == 'E' then
        match rest with
        | s :: digits =>
            if s == '+' || s == '-' then
              if (digits.takeWhile isDigit).isEmpty then []
              else c :: s :: digits.takeWhile isDigit
            else if (rest.takeWhile isDigit).isEmpty then []
            else c :: rest.takeWhile isDigit
        | [] => []
      else []
  | [] => []

/-- Digits with an optional point and at least one digit, at the start of a text. -/
def leadingDigits (s : List Char) : List Char :=
  let whole := s.takeWhile isDigit
  match s.dropWhile isDigit with
  | '.' :: rest =>
      let fraction := rest.takeWhile isDigit
      if whole.isEmpty && fraction.isEmpty then [] else whole ++ '.' :: fraction
  | _ => whole

def leadingUnsigned (s : List Char) : List Char :=
  let digits := leadingDigits s
  if digits.isEmpty then [] else digits ++ leadingExponent (s.drop digits.length)

/-- The number at the start of a text; none is the empty text. -/
def leadingNumber : List Char → List Char
  | '-' :: rest =>
      let digits := leadingUnsigned rest
      if digits.isEmpty then [] else '-' :: digits
  | s => leadingUnsigned s

/-- The token at a character that is neither blank nor a separator, with the number
of characters after its first. -/
def tokenAt (c : Char) (rest : List Char) : Except Fault (Token × Nat) :=
  match mark? c rest with
  | some found => .ok found
  | none =>
      if c == '\'' || c == '"' then
        match readText c rest with
        | some (value, n) => .ok (.text (String.ofList value), n)
        | none => .error .unterminatedText
      else
        match leadingNumber (c :: rest) with
        | d :: digits =>
            match Numeral.decimal? (d :: digits) with
            | some value => .ok (.number value, digits.length)
            | none => .error (.unexpectedCharacter c)
        | [] =>
            if isWordStart c then
              let more := rest.takeWhile isWordCharacter
              .ok (ofWord (String.ofList (c :: more)), more.length)
            else .error (.unexpectedCharacter c)

/-- Words and numbers must not be followed at once by a letter, digit, underscore or point. -/
def Token.standsApart : Token → Bool
  | number _ | identifier _ | and | or | not | within => true
  | _ => false

def glues (c : Char) : Bool := isAlphanumeric c || c == '_' || c == '.'

def isSeparator (c : Char) : Bool := c == '\n' || c == ';'

def byteLength : List Char → Nat
  | [] => 0
  | c :: rest => c.utf8Size + byteLength rest

/-- Checks the character that follows a token. -/
def checkApart (token : Token) (lexeme rest : List Char) : Except Fault Unit :=
  match rest with
  | [] => .ok ()
  | next :: _ =>
      if token.standsApart && glues next then .error (.gluedToken (String.ofList lexeme) next)
      else .ok ()

/-- The tokens of a text that starts `offset` bytes into the filter, or the place of
the first character that starts none. -/
def scan (offset : Nat) : List Char → Except (Nat × Fault) (List Lexeme)
  | [] => .ok []
  | c :: rest =>
      if isSeparator c then
        (scan (offset + 1) rest).map (⟨.separator, offset, [c]⟩ :: ·)
      else if isBlank c then scan (offset + c.utf8Size) rest
      else
        match tokenAt c rest with
        | .error fault => .error (offset, fault)
        | .ok (token, extra) =>
            let lexeme := c :: rest.take extra
            match checkApart token lexeme (rest.drop extra) with
            | .error fault => .error (offset, fault)
            | .ok () =>
                (scan (offset + byteLength lexeme) (rest.drop extra)).map
                  (⟨token, offset, lexeme⟩ :: ·)
termination_by s => s.length

def tokenize (s : List Char) : Except (Nat × Fault) (List Lexeme) := scan 0 s

end Traceability.Filter
