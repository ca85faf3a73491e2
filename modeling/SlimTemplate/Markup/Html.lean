import SlimTemplate.Directive.Pass
import SlimTemplate.Html.Document

/-!
# Markup from HTML with directives

A source is read in four steps: the doctype declaration is taken out, the directives become
markup, the markup is read as HTML, and the elements that reading adds around a fragment are
dissolved again.

## Main definitions

* `Markup.mentionsRoot`: whether a source is a whole document.
* `Markup.Document.ofHtml`: the document of a source.
-/

namespace SlimTemplate.Markup

/-- Whether a source is a whole document: somewhere it has `<html` in any case. -/
def mentionsRoot (source : Text) : Bool :=
  Text.hasInfix "<html".toList (Text.toAsciiLower source)

/-- The children of a node that is an element of one of the given names. -/
def childrenIf? (names : List Text) : Node → Option (List Node)
  | .element name _ children => if names.contains name then some children else none
  | _ => none

/-- The nodes with head and body dissolved into their children. -/
def dissolveSections (nodes : List Node) : List Node :=
  nodes.flatMap fun node =>
    (childrenIf? ["head".toList, "body".toList] node).getD [node]

/-- The nodes with the root, its head and its body dissolved into their children. -/
def dissolveRoot (nodes : List Node) : List Node :=
  nodes.flatMap fun node =>
    match childrenIf? ["html".toList] node with
    | some children => dissolveSections children
    | none => [node]

/-- The root alone, or all nodes when there is none. -/
def rootOnly (nodes : List Node) : List Node :=
  match nodes.find? fun node => (childrenIf? ["html".toList] node).isSome with
  | some root => [root]
  | none => nodes

/-- The document of a source of HTML with directives. -/
def Document.ofHtml (source : Text) : Document :=
  let (doctype, source) := Doctype.strip source
  let nodes := Html.parse (Directive.toMarkup source)
  ⟨doctype, if mentionsRoot source then rootOnly nodes else dissolveRoot nodes⟩

end SlimTemplate.Markup
