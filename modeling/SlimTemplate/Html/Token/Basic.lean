import SlimTemplate.Html.Name
import SlimTemplate.Html.Reference
import SlimTemplate.Markup.Tree

/-!
# Tokens of HTML

What the builder of the document reads: single characters, comments, tags, document types, faults
and the end of the text.

## Main definitions

* `Html.Tag`: a start tag or an end tag.
* `Html.Token`: one thing that the builder takes.
* `Html.chars`, `Html.charsMeant`: text as tokens.
-/

namespace SlimTemplate.Html

/-- Whether a tag starts or ends an element. -/
inductive TagKind where
  | start
  | stop
  deriving DecidableEq, Repr

/-- A tag as written, its names in small letters. -/
structure Tag where
  kind : TagKind
  name : String
  /-- The attributes in order, each key once. -/
  attributes : List Markup.Attribute
  /-- Whether the tag ends in `/>`. -/
  selfClosing : Bool
  deriving DecidableEq, Repr

/-- A start tag without attributes. -/
def Tag.plain (name : String) : Tag :=
  ⟨.start, name, [], false⟩

/-- The value of an attribute of a tag. -/
def Tag.attribute? (tag : Tag) (key : Text) : Option Text :=
  tag.attributes.lookup key

/-- Whether the tag has the type `hidden`. -/
def Tag.isHidden (tag : Tag) : Bool :=
  match tag.attribute? "type".toList with
  | some value => Text.eqIgnoreAsciiCase value "hidden".toList
  | none => false

/-- One thing that the builder of the document takes. -/
inductive Token where
  | char (c : Char)
  | comment (data : Text)
  | tag (tag : Tag)
  /-- A fault in the text that gives nothing else. -/
  | fault
  /-- A document type, and whether it asks for the lenient rules of old documents. -/
  | doctype (lenient : Bool)
  | stop
  deriving DecidableEq, Repr

/-- Characters as tokens. -/
def chars (text : Text) : List Token :=
  text.map .char

/-- A part of a text in which references stand, as tokens. A reference that lacks its semicolon is
a fault. -/
def pieceTokens : Reference.Piece → List Token
  | .char c => [.char c]
  | .reference target =>
    if target.isClosed then chars target.chars else .fault :: chars target.chars

/-- The characters that a text with references means, as tokens. -/
def charsMeant (text : Text) : List Token :=
  (Reference.pieces false text).flatMap pieceTokens

/-- A NUL character becomes the replacement character. -/
def replaceNul (text : Text) : Text :=
  text.map fun c => if c = '\x00' then '\uFFFD' else c

/-- Line endings become single line feeds, and a byte order mark at the start is dropped. -/
def normalize (text : Text) : Text :=
  let text :=
    match text with
    | '\uFEFF' :: rest => rest
    | text => text
  unifyLineEnds text
where
  /-- A carriage return, with the line feed after it if there is one, becomes a line feed. -/
  unifyLineEnds : Text → Text
    | [] => []
    | '\r' :: '\n' :: rest => '\n' :: unifyLineEnds rest
    | '\r' :: rest => '\n' :: unifyLineEnds rest
    | c :: rest => c :: unifyLineEnds rest

end SlimTemplate.Html
