import SlimTemplate.Markup.Doctype

/-!
# The markup tree

Markup is a list of nodes: elements with attributes and children, pieces of text, comments, and
block directives. A block directive encloses the nodes that it controls, as an element does.

## Main definitions

* `Markup.Node`: the tree.
* `Markup.Element`: what the line of an element is written from.
* `Markup.Document`: a document type and the nodes at top level.
* `Markup.Node.ofMarker`: a block directive from the value that marks it.
-/

namespace SlimTemplate.Markup

/-- A name and its value. -/
abbrev Attribute := Text × Text

/-- A node of the markup tree. -/
inductive Node where
  /-- An element with its name, its attributes in document order, and its children. -/
  | element (name : Text) (attributes : List Attribute) (children : List Node)
  | text (content : Text)
  | comment (content : Text)
  /-- A block directive: whether it writes what its code yields, the code, and what it
  encloses. -/
  | block (isOutput : Bool) (code : Text) (children : List Node)

/-- The nodes at top level under an optional document type. -/
structure Document where
  /-- The document type, when one is declared. -/
  doctype : Option Doctype
  nodes : List Node

/-- An element apart from its children. -/
structure Element where
  name : Text
  attributes : List Attribute

/-- The value of the first attribute of that name. -/
def Element.attribute? (e : Element) (name : Text) : Option Text :=
  (e.attributes.find? fun (key, _) => key = name).map (·.2)

/-- The only child of a list of children, when it is text. -/
def singleText? : List Node → Option Text
  | [.text content] => some content
  | _ => none

/-- A block directive from the value of its marker: a leading `=` marks output, and the code is
what follows, trimmed. -/
def Node.ofMarker (value : Text) (children : List Node) : Node :=
  match value with
  | '=' :: code => .block true (Text.trim code) children
  | code => .block false (Text.trim code) children

end SlimTemplate.Markup
