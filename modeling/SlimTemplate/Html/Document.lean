import SlimTemplate.Html.Construction.Select

/-!
# Reading an HTML document

Tokens are read from the text and taken by the builder until the text ends. How the next token is
read depends on what is open: raw text is read to its end tag.

## Main definitions

* `Html.Builder.step`: one token by the rules of the current mode.
* `Html.Builder.take`: a token, taken again as long as the rules ask for it.
* `Html.Builder.run`: a whole text.
* `Html.parse`: the nodes below the document.
-/

namespace SlimTemplate.Html

namespace Builder

/-- In an element whose content is read as text. -/
def takeText (b : Builder) (token : Token) : Step :=
  match token with
  | .char c => .done (b.insertChar c)
  | .stop => .again (b.pop.goto b.returnMode) token
  | .tag _ | .comment _ | .doctype _ | .fault => .done (b.pop.goto b.returnMode)

/-- The rules of the current mode. -/
def stepByMode (b : Builder) (token : Token) : Step :=
  match b.mode with
  | .initial => b.takeInitial token
  | .beforeHtml => b.takeBeforeHtml token
  | .beforeHead => b.takeBeforeHead token
  | .inHead => b.takeInHead token
  | .afterHead => b.takeAfterHead token
  | .inBody => b.takeInBody token
  | .text => b.takeText token
  | .inTable => b.takeInTable token
  | .inTableText => b.takeInTableText token
  | .inCaption => b.takeInCaption token
  | .inColumnGroup => b.takeInColumnGroup token
  | .inTableBody => b.takeInTableBody token
  | .inRow => b.takeInRow token
  | .inCell => b.takeInCell token
  | .inSelect => b.takeInSelect token
  | .inSelectInTable => b.takeInSelectInTable token
  | .inTemplate => b.takeInTemplate token
  | .afterBody => b.takeAfterBody token
  | .inFrameset => b.takeInFrameset token
  | .afterFrameset => b.takeAfterFrameset token
  | .afterAfterBody => b.takeAfterRoot token
  | .afterAfterFrameset => b.takeAfterFramesetRoot token

/-- One token by the rules that apply to it. -/
def step (b : Builder) (token : Token) : Step :=
  if b.isForeign token then takeForeign stepByMode b token else b.stepByMode token

/-- Takes a token as often as the rules ask for it. Each time but a few an element is closed, so
the number of open elements bounds the rounds. -/
def takeRounds : (rounds : Nat) → Builder → Token → Builder
  | 0, b, _ => b
  | rounds + 1, b, token =>
    match b.step token with
    | .done b => b
    | .again b token => takeRounds rounds b token

/-- Takes a token. A document type counts only before everything else, and a fault only makes a
line feed after it count. -/
def take (b : Builder) (token : Token) : Builder :=
  let dropsLineFeed := b.dropLineFeed
  let b := { b with dropLineFeed := false }
  match token with
  | .doctype lenient => if b.mode = .initial then { b with lenient }.goto .beforeHtml else b
  | .fault => b
  | .char '\n' => if dropsLineFeed then b else b.takeRounds (4 * b.opened.length + 32) token
  | token => b.takeRounds (4 * b.opened.length + 32) token

/-- Takes tokens in order. -/
def takeAll (b : Builder) (tokens : List Token) : Builder :=
  tokens.foldl take b

/-- The name of the innermost open element. -/
def rawName (b : Builder) : Text :=
  (b.currentName?.map fun name => name.local.toList).getD []

/-- Takes the raw text that the innermost element holds, and what is left of the text. -/
def takeRaw (b : Builder) (text : Text) : Builder × Text :=
  match b.raw with
  | none => (b, text)
  | some kind =>
    let (tokens, rest) := scanRaw kind b.rawName text
    ({ b.takeAll tokens with raw := none }, rest)

theorem length_takeRaw_le (b : Builder) (text : Text) :
    (b.takeRaw text).2.length ≤ text.length := by
  unfold takeRaw
  split
  · simp
  · exact length_scanRaw_le _ _ _

/-- Reads a whole text. -/
def run (b : Builder) (text : Text) : Builder :=
  if _h : (b.takeRaw text).2 = [] then (b.takeRaw text).1.take .stop
  else
    let opened := (b.takeRaw text).1
    let read := scan opened.inForeign (b.takeRaw text).2
    (opened.takeAll read.1).run read.2
termination_by text.length
decreasing_by
  exact Nat.lt_of_lt_of_le (length_scan_lt _ _h) (length_takeRaw_le b text)

end Builder

/-- The finished builder of an HTML text. -/
def build (text : Text) : Builder :=
  Builder.start.run (normalize text)

/-- The nodes below the document of an HTML text. -/
def parse (text : Text) : List Markup.Node :=
  let arena := (build text).arena
  arena.toNodes arena.cells.size Arena.document

end SlimTemplate.Html
