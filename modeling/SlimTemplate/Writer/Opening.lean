import SlimTemplate.Markup.Tree

/-!
# The opening of an element

The line of an element starts with its name, then `#` and the identifier, then `.` and each class,
then the other attributes in brackets. A `div` with an identifier or a class is written without its
name.

## Main definitions

* `Markup.Element.id?`, `Markup.Element.classes`: what the shorthand is made from.
* `Markup.Element.opening`: the line of an element.
-/

namespace SlimTemplate

/-- The element that is meant where no name is written. -/
def defaultTag : Text :=
  "div".toList

namespace Markup.Element

/-- The identifier of an element, trimmed, unless it is blank. -/
def id? (e : Element) : Option Text :=
  ((e.attribute? "id".toList).map Text.trim).filter fun id => !id.isEmpty

/-- The classes of an element in order. -/
def classes (e : Element) : List Text :=
  match e.attribute? "class".toList with
  | some value => Text.words value
  | none => []

/-- The attributes other than identifier and class. -/
def otherAttributes (e : Element) : List Attribute :=
  e.attributes.filter fun (key, _) => key ≠ "id".toList && key ≠ "class".toList

/-- An attribute as written in brackets: without an empty value, and with the quotes that its
value does not contain. Line feeds become spaces. -/
def attributeText : Attribute → Text
  | (key, value) =>
    let value := value.map fun c => if c = '\n' then ' ' else c
    if value.isEmpty then key
    else if value.contains '"' then key ++ "='".toList ++ value ++ ['\'']
    else key ++ "=\"".toList ++ value ++ ['"']

/-- The attributes in brackets, or nothing. -/
def bracketed (attributes : List Attribute) : Text :=
  if attributes.isEmpty then []
  else '[' :: Text.joinWith [' '] (attributes.map attributeText) ++ [']']

/-- Whether the name of an element is left out. -/
def isNameless (e : Element) : Bool :=
  e.name = defaultTag && (e.id?.isSome || !e.classes.isEmpty)

/-- The line of an element. -/
def opening (e : Element) : Text :=
  (if e.isNameless then [] else e.name) ++
    (match e.id? with
      | some id => '#' :: id
      | none => []) ++
    (e.classes.flatMap fun c => '.' :: c) ++ bracketed e.otherAttributes

end Markup.Element

end SlimTemplate
