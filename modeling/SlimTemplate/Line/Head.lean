import SlimTemplate.Writer.Opening

/-!
# Heads of element lines

The head of an element line is its tag name, the identifiers and classes written behind it, and
the attributes in brackets. What follows the head is the text of the element, if white space
stands between.

## Main definitions

* `Head`: a head taken apart.
* `Head.scan?`: the head of a line.
* `Head.textBehind?`: the text behind a head.
-/

namespace SlimTemplate

/-- A name written behind `#` or `.`. -/
structure Mark where
  sign : Char
  name : Text
  deriving DecidableEq, Repr

/-- A mark as written. -/
def Mark.text (mark : Mark) : Text :=
  mark.sign :: mark.name

/-- A head taken apart. -/
structure Head where
  /-- The tag name, if one is written. -/
  element : Option Text
  /-- The identifiers and classes in order. -/
  marks : List Mark
  attributes : Option Text
  remainder : Text
  deriving DecidableEq, Repr

namespace Head

/-- The characters of tag names. -/
def isTagChar (c : Char) : Bool :=
  c.isAlphanum || c == '-' || c == '_' || c == ':'

/-- The characters of identifiers and classes. -/
def isNameChar (c : Char) : Bool :=
  c.isAlphanum || c == '-' || c == '_'

/-- The identifiers and classes at the start of a text, and the rest. A sign without a name is
not read. -/
def readMarks (text : Text) : List Mark × Text :=
  match text with
  | [] => ([], [])
  | c :: rest =>
    let name := rest.takeWhile isNameChar
    if (c = '#' || c = '.') && !name.isEmpty then
      let (marks, rest) := readMarks (rest.dropWhile isNameChar)
      (⟨c, name⟩ :: marks, rest)
    else ([], c :: rest)
termination_by text.length
decreasing_by
  have := (List.dropWhile_sublist (l := rest) isNameChar).length_le
  simp only [List.length_cons]
  omega

/-- The text through the bracket that closes `depth` open ones, and the rest. Brackets in quotes
do not count. A list that is never closed takes the whole text. -/
def readBrackets (depth : Nat) (quote : Option Char) : Text → Text × Text
  | [] => ([], [])
  | c :: text =>
    let more (depth : Nat) (quote : Option Char) : Text × Text :=
      let (list, rest) := readBrackets depth quote text
      (c :: list, rest)
    match quote with
    | some q => more depth (if c = q then none else some q)
    | none =>
      if c = '"' || c = '\'' then more depth (some c)
      else if c = '[' then more (depth + 1) none
      else if c = ']' then if depth ≤ 1 then ([c], text) else more (depth - 1) none
      else more depth none

/-- The attributes at the start of a text, if it begins with a bracket, and the rest. -/
def readAttributes (text : Text) : Option Text × Text :=
  match text with
  | '[' :: _ => let (list, rest) := readBrackets 0 none text; (some list, rest)
  | text => (none, text)

/-- The part of a head after the tag name. -/
def scanAfterName (element : Option Text) (text : Text) : Head :=
  let (marks, rest) := readMarks text
  let (attributes, remainder) := readAttributes rest
  ⟨element, marks, attributes, remainder⟩

/-- The head of a line that begins with a letter, `#` or `.`. -/
def scan? : Text → Option Head
  | [] => none
  | c :: text =>
    if c.isAlpha then
      some (scanAfterName (some (c :: text.takeWhile isTagChar)) (text.dropWhile isTagChar))
    else if c = '#' || c = '.' then some (scanAfterName none (c :: text))
    else none

/-- The tag name that is meant. -/
def tagName (head : Head) : Text :=
  head.element.getD defaultTag

/-- The first identifier. -/
def id? (head : Head) : Option Text :=
  (head.marks.find? (·.sign = '#')).map (·.name)

/-- The classes in order. -/
def classes (head : Head) : List Text :=
  (head.marks.filter (·.sign = '.')).map (·.name)

/-- Whether a class is among those of the head. -/
def hasClass (head : Head) (name : Text) : Bool :=
  head.classes.contains name

/-- The head as written. -/
def text (head : Head) : Text :=
  head.element.getD [] ++ head.marks.flatMap Mark.text ++ head.attributes.getD []

/-- The text behind the head, when white space separates it from the head. -/
def textBehind? (head : Head) : Option Text :=
  match head.remainder with
  | [] => none
  | c :: _ =>
    if Text.isBlank c then
      let text := Text.trim head.remainder
      if text.isEmpty then none else some text
    else none

end Head

end SlimTemplate
