import SlimTemplate.Text.Blank
import SlimTemplate.Text.Number

/-!
# Structural comments

A directive that encloses nothing travels through the markup as a comment whose text begins with
the label of its kind. A comment cannot hold `-->`, so that text is replaced on the way in and put
back on the way out. A comment may also end in `:INDENT:n`; it is then written `n` levels deeper.

## Main definitions

* `Directive.CommentKind`: the kinds of structural comments.
* `Directive.encode`: a comment as markup.
* `Directive.decode`: the text of a comment taken apart.
-/

namespace SlimTemplate.Directive

/-- The kinds of structural comments. -/
inductive CommentKind where
  | codeLines
  /-- An output expression over several lines. -/
  | outputLines
  /-- An output expression that opens a block. -/
  | outputBlock
  | output
  | codeBlock
  | code
  | stop
  deriving DecidableEq, Repr

namespace CommentKind

/-- The kinds in the order in which they are looked for. -/
def all : List CommentKind :=
  [codeLines, outputLines, outputBlock, output, codeBlock, code, stop]

/-- The text that a comment of this kind begins with. -/
def label : CommentKind → Text
  | codeLines => "SLIM_MULTILINE_CODE:".toList
  | outputLines => "SLIM_MULTILINE_OUTPUT:".toList
  | outputBlock => "SLIM_OUTPUT_BLOCK:".toList
  | output => "SLIM_OUTPUT:".toList
  | codeBlock => "SLIM_CODE_BLOCK:".toList
  | code => "SLIM_CODE:".toList
  | stop => "SLIM_END".toList

/-- The body of a comment of this kind. The end of a block has no body. -/
def body? (kind : CommentKind) (text : Text) : Option Text :=
  match kind with
  | stop => if text = stop.label then some [] else none
  | kind => Text.dropPrefix? kind.label text

end CommentKind

/-- The text that closes a comment. -/
def arrow : Text :=
  "-->".toList

/-- The text that stands for `-->` in the body of a comment. -/
def arrowStandIn : Text :=
  "__SLIM_ARROW__".toList

/-- The data of a structural comment. -/
def commentData (kind : CommentKind) (body : Text) : Text :=
  kind.label ++ Text.replaceAll arrow arrowStandIn body

/-- A structural comment as markup. -/
def encode (kind : CommentKind) (body : Text) : Text :=
  "<!--".toList ++ commentData kind body ++ arrow

/-- The text of a comment taken apart. -/
structure Decoded where
  /-- The kind, if the comment is a structural one. -/
  kind : Option CommentKind
  /-- The text without label and indentation request. -/
  body : Text
  /-- How many levels deeper the comment is to be written. -/
  extraIndent : Nat
  deriving DecidableEq, Repr

/-- The text that asks for deeper indentation, before its number. -/
def indentLabel : Text :=
  ":INDENT:".toList

/-- The text before a request for deeper indentation, and the number asked for. A number that is
not written in ASCII digits or is too large counts as zero. -/
def cutIndent (text : Text) : Text × Nat :=
  let digits := (text.reverse.takeWhile Text.isDecimalDigit).reverse
  let start := (text.reverse.dropWhile Text.isDecimalDigit).reverse
  if digits.isEmpty || !Text.hasSuffix indentLabel start then (text, 0)
  else (start.take (start.length - indentLabel.length), (Text.readSize? digits).getD 0)

/-- The first kind whose label the text begins with, and its body. -/
def findKind? (text : Text) : Option (CommentKind × Text) :=
  CommentKind.all.findSome? fun kind => (kind.body? text).map fun body => (kind, body)

/-- Takes the text of a comment apart. -/
def decode (text : Text) : Decoded :=
  let (text, extraIndent) := cutIndent (Text.trim text)
  match findKind? text with
  | some (kind, body) => ⟨some kind, Text.replaceAll arrowStandIn arrow body, extraIndent⟩
  | none => ⟨none, text, extraIndent⟩

end SlimTemplate.Directive
