import Traceability.Text.Order

/-!
Blank characters are those with the Unicode property White_Space. Trimming, words
and lines of a text are cut by them and by separators given as a test.
-/

namespace Traceability.Text

def isBlank (c : Char) : Bool :=
  let n := c.toNat
  (9 ≤ n && n ≤ 13) || n == 0x20 || n == 0x85 || n == 0xA0 || n == 0x1680 ||
    (0x2000 ≤ n && n ≤ 0x200A) || n == 0x2028 || n == 0x2029 || n == 0x202F ||
    n == 0x205F || n == 0x3000

def trimStart (s : List Char) : List Char := s.dropWhile isBlank

def trimEnd (s : List Char) : List Char := (s.reverse.dropWhile isBlank).reverse

def trim (s : List Char) : List Char := trimEnd (trimStart s)

/-- Cuts at every separator, so a text with n separators has n + 1 pieces. -/
def split (separates : Char → Bool) : List Char → List (List Char)
  | [] => [[]]
  | c :: rest =>
      if separates c then [] :: split separates rest
      else match split separates rest with
        | [] => [[c]]
        | piece :: pieces => (c :: piece) :: pieces

def words (s : List Char) : List (List Char) :=
  (split isBlank s).filter fun piece => !piece.isEmpty

def dropReturn (line : List Char) : List Char :=
  if line.getLast? == some '\r' then line.dropLast else line

/-- A line ends with a line feed, which may follow a carriage return; a last line
without its line feed keeps all of its characters. -/
def terminated : List (List Char) → List (List Char)
  | [] => []
  | [last] => if last.isEmpty then [] else [last]
  | line :: next :: rest => dropReturn line :: terminated (next :: rest)

def lines (s : List Char) : List (List Char) := terminated (split (· == '\n') s)

/-- Joins texts with a separator between neighbours. -/
def join (separator : List Char) : List (List Char) → List Char
  | [] => []
  | [s] => s
  | s :: t :: rest => s ++ separator ++ join separator (t :: rest)

/-- Whether the first text is a run of neighbouring characters of the second. -/
def occursIn (needle : List Char) : List Char → Bool
  | [] => needle.isEmpty
  | c :: rest => needle.isPrefixOf (c :: rest) || occursIn needle rest

def trimmed (s : String) : String := String.ofList (trim s.toList)

def isBlankText (s : String) : Bool := s.toList.all isBlank

def joined (separator : String) (texts : List String) : String :=
  String.ofList (join separator.toList (texts.map String.toList))

end Traceability.Text
