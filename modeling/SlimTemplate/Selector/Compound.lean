import SlimTemplate.Line.Basic
import SlimTemplate.Line.Head
import SlimTemplate.Text.Word

/-!
# Compound selectors

A compound selector names an element, an identifier and classes, each of which may be missing. It
is written as a tag name followed by `#` and `.` parts. A text of another form selects by what its
first character says: an identifier after `#`, a class after `.`, otherwise an element.

## Main definitions

* `Compound`: a compound selector.
* `Compound.parse`: the selector that a text denotes.
* `Compound.text`: a selector as written.
* `Compound.selects`: whether a line is selected.
-/

namespace SlimTemplate

/-- The letters of the Latin alphabet in any case, with the two further characters that are
equal to one of them up to case. -/
def isLatinLetter (c : Char) : Bool :=
  c.isAlpha || c == 'ſ' || c == '\u212A'

/-- An element, an identifier and classes, each of which may be missing. -/
structure Compound where
  element : Option Text
  id : Option Text
  classes : List Text
  deriving DecidableEq, Repr

namespace Compound

/-- The characters of names in a selector. -/
def isNameChar (c : Char) : Bool :=
  Text.isWordChar c || c == '-'

/-- The parts of a text that consists of names behind `#` and `.`. -/
def marksOf (text : Text) : List Mark :=
  match text with
  | [] => []
  | c :: rest => ⟨c, rest.takeWhile isNameChar⟩ :: marksOf (rest.dropWhile isNameChar)
termination_by text.length
decreasing_by
  have := (List.dropWhile_sublist (l := rest) isNameChar).length_le
  simp only [List.length_cons]
  omega

/-- The tag name and the parts of a text in the usual form. -/
def regular? (text : Text) : Option (Text × List Mark) :=
  let starts := (text.head?.map isLatinLetter).getD false
  let isElementChar (c : Char) : Bool := starts && (isLatinLetter c || c.isDigit)
  let name := text.takeWhile isElementChar
  let rest := text.dropWhile isElementChar
  match rest with
  | [] => some (name, [])
  | c :: _ =>
    if (c = '#' || c = '.') && rest.all (fun c => isNameChar c || c == '#' || c == '.') then
      some (name, (marksOf rest).filter fun mark => !mark.name.isEmpty)
    else none

/-- The selector that a text denotes. -/
def parse (text : Text) : Compound :=
  match regular? text with
  | some (name, marks) =>
    { element := if name.isEmpty then none else some name
      id := (marks.find? (·.sign = '#')).map (·.name)
      classes := (marks.filter (·.sign = '.')).map (·.name) }
  | none =>
    match text with
    | '#' :: id => ⟨none, some id, []⟩
    | '.' :: name => ⟨none, none, [name]⟩
    | name => ⟨some name, none, []⟩

/-- A selector as written. -/
def text (compound : Compound) : Text :=
  compound.element.getD [] ++ (compound.id.map ('#' :: ·)).getD [] ++
    compound.classes.flatMap ('.' :: ·)

/-- Whether a head has what a selector asks for. -/
def matchesHead (compound : Compound) (head : Head) : Bool :=
  (match compound.element with
    | some name => Text.eqIgnoreAsciiCase head.tagName name
    | none => true) &&
    (match compound.id with
      | some id => head.id? = some id
      | none => true) &&
    compound.classes.all head.hasClass

/-- Whether a line is selected. Only element lines are. -/
def selects (compound : Compound) (line : SlimLine) : Bool :=
  line.kind.isElement &&
    match Head.scan? line.content with
    | some head => compound.matchesHead head
    | none => false

end Compound

end SlimTemplate
