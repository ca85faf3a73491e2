import SlimTemplate.Directive.Comment
import SlimTemplate.Line.Layout
import SlimTemplate.Text.Lines
import SlimTemplate.Text.Word
import SlimTemplate.Writer.Opening

/-!
# Writing markup as Slim

Each node of the markup tree becomes lines at a depth: an element its opening with short text
behind it and its children one level deeper, text lines after bars, structural comments the code
that they carry.

## Main definitions

* `Writer.Entry`: a line at a depth.
* `Writer.nodeEntries`: the lines of a node.
* `Markup.Document.entries`: the lines of a document.
* `Markup.Document.toSlim`: a document as Slim.
-/

namespace SlimTemplate.Writer

open Markup

/-- A line to be written, and how deep it stands. -/
structure Entry where
  /-- The number of levels of indentation. -/
  depth : Nat
  text : Text
  deriving DecidableEq, Repr

/-- Whether an element never has content. -/
def isVoid (name : Text) : Bool :=
  (["area", "base", "br", "col", "embed", "hr", "img", "input", "link", "meta", "param", "source",
    "track", "wbr"].map String.toList).contains name

/-- The element whose text keeps its line breaks. -/
def preformatted : Text :=
  "pre".toList

/-- The words after which a block directive is never written as output. -/
def controlKeywords : List Text :=
  ["if", "unless", "case", "for", "while", "elsif", "else", "when"].map String.toList

/-- Whether code starts with a control keyword. -/
def startsWithControl (code : Text) : Bool :=
  controlKeywords.any fun word =>
    match Text.dropPrefix? word code with
    | some rest => Text.atWordEnd rest
    | none => false

/-- A line of text. -/
def pipe (line : Text) : Text :=
  "| ".toList ++ line

/-- A line of output; a further `=` at the start of the expression asks for it unescaped. -/
def outputText : Text → Text
  | '=' :: raw => "== ".toList ++ Text.trim raw
  | expression => "= ".toList ++ expression

/-- A line of code. -/
def codeLine (code : Text) : Text :=
  "- ".toList ++ code

/-- The line of a block directive. -/
def blockLine (isOutput : Bool) (code : Text) : Text :=
  if isOutput && !startsWithControl code then "= ".toList ++ code else codeLine code

/-- A text with each line break and the blanks after it written as `\n` and a space. -/
def markBreaks : (afterBreak : Bool) → Text → Text
  | _, [] => []
  | afterBreak, c :: text =>
    if afterBreak && Text.isBlank c then markBreaks true text
    else if c = '\n' then "\\n ".toList ++ markBreaks true text
    else c :: markBreaks false text

/-- The lines of an element whose only child is text. -/
def inlineEntries (depth : Nat) (e : Element) (content : Text) : List Entry :=
  let content := Text.trim content
  let tag := e.opening
  let bare := Entry.mk depth tag
  if content.isEmpty then [bare]
  else if e.name = preformatted then [⟨depth, tag ++ ' ' :: markBreaks false content⟩]
  else
    let lines := Text.visibleLines content
    if lines.length > 1 then bare :: lines.map fun line => ⟨depth + 1, pipe line⟩
    else
      let line := Text.collapse content
      if line.head? = some '/' then [bare, ⟨depth + 1, pipe line⟩]
      else [⟨depth, tag ++ ' ' :: line⟩]

/-- The lines of a piece of text. -/
def textEntries (depth : Nat) (content : Text) : List Entry :=
  match Text.visibleLines content with
  | [] => []
  | [_] => [⟨depth, pipe (Text.collapse content)⟩]
  | lines => lines.map fun line => ⟨depth, pipe line⟩

/-- The number of spaces and tabs at the start of a line. -/
def leadingGap (line : Text) : Nat :=
  (line.takeWhile fun c => c = ' ' || c = '\t').length

/-- The lines of code that are not blank, without the indentation that they share. -/
def flushLines (code : Text) : List Text :=
  let lines := ((Text.lines code).map Text.trimEnd).filter fun line => !line.isEmpty
  let shared := ((lines.map leadingGap).min?).getD 0
  lines.map fun line => line.drop shared

/-- A line that goes on in the next one. -/
def continued (line : Text) : Text :=
  line ++ " \\".toList

/-- The lines of an output expression after the first, each but the last going on. -/
def continuationEntries (depth : Nat) : List Text → List Entry
  | [] => []
  | [last] => [⟨depth, last⟩]
  | line :: more => ⟨depth, continued line⟩ :: continuationEntries depth more

/-- The lines of an output expression over several lines. -/
def outputLinesEntries (depth : Nat) : List Text → List Entry
  | [] => []
  | [only] => [⟨depth, outputText only⟩]
  | first :: more =>
    ⟨depth, continued (outputText first)⟩ :: continuationEntries (depth + 1) more

/-- The lines of a comment that stays a comment. -/
def plainCommentEntries (depth : Nat) : List Text → List Entry
  | [] => [⟨depth, "/!".toList⟩]
  | first :: more =>
    ⟨depth, "/! ".toList ++ first⟩ :: more.map fun line => ⟨depth + 1, line⟩

/-- The lines of a comment. -/
def commentEntries (depth : Nat) (content : Text) : List Entry :=
  let decoded := Directive.decode content
  let depth := depth + decoded.extraIndent
  let body := Text.trim decoded.body
  match decoded.kind with
  | some .codeLines =>
    ⟨depth, "ruby:".toList⟩ :: (flushLines decoded.body).map fun line => ⟨depth + 1, line⟩
  | some .outputLines => outputLinesEntries depth (Text.visibleLines body)
  | some .output | some .outputBlock => if body.isEmpty then [] else [⟨depth, outputText body⟩]
  | some .code | some .codeBlock => if body.isEmpty then [] else [⟨depth, codeLine body⟩]
  | some .stop => []
  | none => plainCommentEntries depth (Text.visibleLines body)

mutual

/-- The lines of a node. -/
def nodeEntries (depth : Nat) : Node → List Entry
  | .text content => textEntries depth content
  | .comment content => commentEntries depth content
  | .block isOutput code children =>
    if code.isEmpty then nodesEntries depth children
    else ⟨depth, blockLine isOutput code⟩ :: nodesEntries (depth + 1) children
  | .element name attributes children =>
    let e : Element := ⟨name, attributes⟩
    if isVoid name || children.isEmpty then [⟨depth, e.opening⟩]
    else
      match singleText? children with
      | some content => inlineEntries depth e content
      | none => ⟨depth, e.opening⟩ :: nodesEntries (depth + 1) children

/-- The lines of nodes side by side. -/
def nodesEntries (depth : Nat) : List Node → List Entry
  | [] => []
  | node :: nodes => nodeEntries depth node ++ nodesEntries depth nodes

end

/-- A line with its indentation. -/
def Entry.line (layout : Layout) (entry : Entry) : Text :=
  layout.indent entry.depth ++ entry.text

end SlimTemplate.Writer

namespace SlimTemplate.Markup.Document

/-- The lines of a document. -/
def entries (document : Document) : List Writer.Entry :=
  (match document.doctype with
    | some doctype => [⟨0, doctype.line⟩]
    | none => []) ++
    Writer.nodesEntries 0 document.nodes

/-- A document as Slim, ended by a line feed. -/
def toSlim (layout : Layout) (document : Document) : Text :=
  Text.unlines (document.entries.map (Writer.Entry.line layout)) ++ ['\n']

end SlimTemplate.Markup.Document
