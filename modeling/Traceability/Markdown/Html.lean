import Traceability.Markdown.Line

/-!
Lines that start a block of HTML. Some blocks go on to a line with a fixed ending, the
others to a blank line.
-/

namespace Traceability.Markdown.Html

def lower (c : Char) : Char := c.toLower

def isLetter (c : Char) : Bool := ('a' ≤ c && c ≤ 'z') || ('A' ≤ c && c ≤ 'Z')

def isAlphanumeric (c : Char) : Bool := isLetter c || ('0' ≤ c && c ≤ '9')

/-- The elements whose content is kept to their end tag. -/
def rawElements : List String := ["pre", "style", "script", "textarea"]

/-- The ending of a block that starts behind a `<` with one of a few openings. -/
def ending? (s : List Char) : Option String :=
  let raw := rawElements.find? fun name =>
    let n := name.length
    (s.take n).map lower == name.toList &&
      (s.drop n).head?.all fun c => isAsciiBlank c || c == '>'
  match raw with
  | some name => some ("</" ++ name ++ ">")
  | none =>
      if "!--".toList.isPrefixOf s then some "-->"
      else if s.head? == some '?' then some "?>"
      else if "![CDATA[".toList.isPrefixOf s then some "]]>"
      else match s with
        | '!' :: c :: _ => if isLetter c then some ">" else none
        | _ => none

def blockElements : List String :=
  ["address", "article", "aside", "base", "basefont", "blockquote", "body", "caption", "center",
    "col", "colgroup", "dd", "details", "dialog", "dir", "div", "dl", "dt", "fieldset",
    "figcaption", "figure", "footer", "form", "frame", "frameset", "h1", "h2", "h3", "h4", "h5",
    "h6", "head", "header", "hr", "html", "iframe", "legend", "li", "link", "main", "menu",
    "menuitem", "nav", "noframes", "ol", "optgroup", "option", "p", "param", "search", "section",
    "summary", "table", "tbody", "td", "tfoot", "th", "thead", "title", "tr", "track", "ul"]

/-- Whether the tag of a block element starts behind a `<`. -/
def startsElement (s : List Char) : Bool :=
  let s := if s.head? == some '/' then s.drop 1 else s
  let name := s.takeWhile isAlphanumeric
  let rest := s.drop name.length
  blockElements.contains (String.ofList (name.map lower)) &&
    (atLineEnd rest || rest.head?.any (fun c => c == ' ' || c == '\t' || c == '>') ||
      ['/', '>'].isPrefixOf rest)

def isTagCharacter (c : Char) : Bool := isAlphanumeric c || c == '-'

def startsName (c : Char) : Bool := isLetter c || c == '_' || c == ':'

def isNameCharacter (c : Char) : Bool :=
  isAlphanumeric c || c == '_' || c == ':' || c == '.' || c == '-'

def isBare (c : Char) : Bool :=
  !(isAsciiBlank c || c == '"' || c == '\'' || c == '=' || c == '<' || c == '>' ||
    c.toNat == 0x60)

/-- The text behind the value of an attribute. -/
def value? : List Char → Option (List Char)
  | [] => none
  | c :: rest =>
      if c == '"' || c == '\'' then
        match rest.dropWhile fun x => x != c && x != '\n' && x != '\r' with
        | x :: rest => if x == c then some rest else none
        | [] => none
      else if isBare c then some (rest.dropWhile isBare)
      else none

/-- The text behind an attribute, with its value if it has one. -/
def attribute? : List Char → Option (List Char)
  | [] => none
  | c :: rest =>
      if !startsName c then none
      else
        let rest := rest.dropWhile isNameCharacter
        match rest.dropWhile isInner with
        | '=' :: value => value? (value.dropWhile isInner)
        | _ => some rest

def afterAttributes : Nat → List Char → Option (List Char)
  | 0, _ => none
  | fuel + 1, s =>
      let rest := s.dropWhile isInner
      if atLineEnd rest then none
      else if rest.length == s.length || rest.head?.any (fun c => c == '/' || c == '>') then
        some rest
      else match attribute? rest with
        | some rest => afterAttributes fuel rest
        | none => none

/-- Whether a whole tag stands behind a `<`, alone on its line. -/
def isLoneTag (s : List Char) : Bool :=
  let closing := s.head? == some '/'
  let s := if closing then s.drop 1 else s
  if !s.head?.any isLetter then false
  else
    let rest := s.dropWhile isTagCharacter
    match (if closing then some rest else afterAttributes (rest.length + 1) rest) with
    | none => false
    | some rest =>
        let rest := rest.dropWhile isInner
        let rest := if !closing && rest.head? == some '/' then rest.drop 1 else rest
        match rest with
        | '>' :: rest => isBlank rest
        | _ => false

def contains (ending : String) : List Char → Bool
  | [] => ending.isEmpty
  | c :: rest => ending.toList.isPrefixOf (c :: rest) || contains ending rest

end Traceability.Markdown.Html
