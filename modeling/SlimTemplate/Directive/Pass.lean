import SlimTemplate.Directive.Comment
import SlimTemplate.Directive.Marker

/-!
# From directives to markup

Nine passes turn a text with directives into markup that an HTML reader can nest. Their order
matters: directives inside of tags are out of reach of all others; a block of lines is recognised
before its delimiters could be taken for those of a single line; and whatever no other pass takes
becomes a comment of plain code.

## Main definitions

* `Directive.Draft`: a text on its way, with the directives set aside.
* `Directive.Pass`: the nine passes.
* `Directive.toMarkup`: all passes in order.
-/

namespace SlimTemplate.Directive

/-- A text on its way through the passes. -/
structure Draft where
  text : Text
  /-- The directives set aside, in the order of their numbers. -/
  stash : List Text
  deriving DecidableEq, Repr

/-- The code of a block of lines. Only the line breaks at its start are dropped, so that the first
line keeps its indentation. -/
def linesOfCode (body : Text) : Text :=
  (Text.trimEnd body).dropWhile fun c => c = '\r' || c = '\n'

/-- A comment for an output expression of one line or more. -/
def outputComment (code : Text) : Text :=
  if code.contains '\n' then encode .outputLines code else encode .output code

/-- A block of lines of code. -/
def codeLinesMarkup (d : Directive) : Option Text :=
  some (encode .codeLines (linesOfCode d.body))

/-- An output expression over several lines. One that opens a block is joined into one line. -/
def outputLinesMarkup (d : Directive) : Option Text :=
  some <|
    if endsInDo d.code then "<%= ".toList ++ Text.collapse d.code ++ " %>".toList
    else encode .outputLines d.code

/-- An output expression that opens no block. -/
def outputMarkup (d : Directive) : Option Text :=
  if endsInDo d.code then none else some (outputComment d.code)

/-- The value that marks a block directive: its code, after `=` if it is an output expression. -/
def markerValue (d : Directive) : Text :=
  if d.isOutput then '=' :: d.code else d.code

/-- A directive that opens a block. -/
def openerMarkup (d : Directive) : Option Text :=
  if d.opensBlock then some (openingTag (markerValue d)) else none

/-- A branch ends the block before it and opens its own. -/
def branchMarkup (d : Directive) : Option Text :=
  if d.isBranch then some (closingTag ++ openingTag d.code) else none

/-- A directive that ends a block. -/
def endMarkup (d : Directive) : Option Text :=
  if d.endsBlock then some closingTag else none

/-- A directive that no other pass has taken. -/
def restMarkup (d : Directive) : Option Text :=
  some <|
    if d.code.isEmpty then []
    else encode (if d.isOutput then .output else .code) d.code

/-- The passes. -/
inductive Pass where
  /-- Sets the directives inside of tags aside. -/
  | setAside
  /-- Takes blocks of lines of code. -/
  | codeLines
  /-- Takes output expressions over several lines. -/
  | outputLines
  /-- Takes output expressions that open no block. -/
  | output
  /-- Takes directives that open a block. -/
  | openers
  | branches
  /-- Takes directives that end a block. -/
  | ends
  | rest
  /-- Puts the directives inside of tags back. -/
  | putBack
  deriving DecidableEq, Repr

namespace Pass

/-- The passes in the order in which they run. -/
def all : List Pass :=
  [setAside, codeLines, outputLines, output, openers, branches, ends, rest, putBack]

/-- The name of a pass. -/
def name : Pass → Text
  | setAside => "protect_attribute_directives".toList
  | codeLines => "multiline_code".toList
  | outputLines => "multiline_output".toList
  | output => "simple_output".toList
  | openers => "block_openers".toList
  | branches => "branches".toList
  | ends => "terminators".toList
  | rest => "catch_all".toList
  | putBack => "restore_attribute_directives".toList

/-- The pass of that name. -/
def ofName? (name : Text) : Option Pass :=
  all.find? (·.name = name)

/-- Runs a pass. -/
def run (pass : Pass) (draft : Draft) : Draft :=
  match pass with
  | setAside =>
    let (text, more) := Directive.setAside draft.stash.length draft.text
    ⟨text, draft.stash ++ more⟩
  | codeLines => { draft with text := replaceEach .codeLines codeLinesMarkup draft.text }
  | outputLines => { draft with text := replaceEach .outputLines outputLinesMarkup draft.text }
  | output => { draft with text := replaceEach .output outputMarkup draft.text }
  | openers => { draft with text := replaceEach .any openerMarkup draft.text }
  | branches => { draft with text := replaceEach .any branchMarkup draft.text }
  | ends => { draft with text := replaceEach .any endMarkup draft.text }
  | rest => { draft with text := replaceEach .any restMarkup draft.text }
  | putBack => ⟨Directive.putBack draft.stash draft.text, []⟩

/-- Runs passes in order. -/
def runAll (passes : List Pass) (draft : Draft) : Draft :=
  passes.foldl (fun draft pass => pass.run draft) draft

end Pass

/-- The text after each of the passes, in order. -/
def stages (draft : Draft) : List Pass → List (Pass × Text)
  | [] => []
  | pass :: more => (pass, (pass.run draft).text) :: stages (pass.run draft) more

/-- A text with every directive turned into markup. -/
def toMarkup (text : Text) : Text :=
  (Pass.runAll Pass.all ⟨text, []⟩).text

end SlimTemplate.Directive
