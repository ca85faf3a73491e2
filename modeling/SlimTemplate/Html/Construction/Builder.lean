import SlimTemplate.Html.Arena
import SlimTemplate.Html.Token.RawText

/-!
# The state of construction

Building the tree of an HTML document is a machine that takes tokens one by one. Its state is the
tree so far, the stack of open elements, the formatting elements to open again, and the mode that
decides how the next token is taken. This file holds that state and its elementary operations.

## Main definitions

* `Html.Mode`: the modes of construction.
* `Html.Builder`: the state.
* `Html.Step`: what taking a token leads to.
* `Html.Builder.inScope`: whether an open element is in reach.
* `Html.Builder.insert`, `Html.Builder.insertChar`, `Html.Builder.insertComment`: additions at the
  current place.
-/

namespace SlimTemplate.Html

/-- The modes of construction, named for the part of the document that is read. -/
inductive Mode where
  | initial
  | beforeHtml
  | beforeHead
  | inHead
  | afterHead
  | inBody
  /-- In an element of raw text. -/
  | text
  | inTable
  /-- In text between the parts of a table. -/
  | inTableText
  /-- In the caption of a table. -/
  | inCaption
  | inColumnGroup
  /-- In a section of a table. -/
  | inTableBody
  /-- In a row of a table. -/
  | inRow
  /-- In a cell of a table. -/
  | inCell
  | inSelect
  /-- In a list of options inside a table. -/
  | inSelectInTable
  | inTemplate
  | afterBody
  | inFrameset
  | afterFrameset
  | afterAfterBody
  /-- After the root element of a document of frames. -/
  | afterAfterFrameset
  deriving DecidableEq, Repr

/-- An element on the stack of open elements. -/
structure OpenElement where
  id : CellId
  name : Name
  /-- Whether it is an annotation of MathML that holds HTML. -/
  holdsHtml : Bool

/-- An entry in the list of formatting elements. -/
inductive FormatEntry where
  /-- The start of an element whose inside is formatted on its own. -/
  | marker
  /-- A formatting element and the tag that started it. -/
  | element (id : CellId) (tag : Tag)

/-- The state of construction. -/
structure Builder where
  arena : Arena
  /-- The open elements, the innermost first. -/
  opened : List OpenElement
  /-- The formatting elements, the latest first. -/
  formatting : List FormatEntry
  mode : Mode
  /-- The mode to return to after raw text or text in a table. -/
  returnMode : Mode
  /-- The modes of the open templates, the innermost first. -/
  templateModes : List Mode
  /-- How the raw text of the innermost element is read, if it holds raw text. -/
  raw : Option RawKind
  /-- Whether a head has been opened. -/
  hasHead : Bool
  head : OpenElement
  form : Option CellId
  /-- Whether a set of frames may still replace the body. -/
  framesetOk : Bool
  /-- Whether a line feed that comes next is dropped. -/
  dropLineFeed : Bool
  /-- Whether misplaced content of a table goes before the table. -/
  fostering : Bool
  /-- Whether the lenient rules of old documents hold. -/
  lenient : Bool
  /-- Text between the parts of a table, the last character first. -/
  tableText : Text

/-- What taking a token leads to. -/
inductive Step where
  | done (b : Builder)
  /-- The token is taken again in the new state. -/
  | again (b : Builder) (token : Token)

namespace Builder

/-- The state before the first token. -/
def start : Builder where
  arena := .empty
  opened := []
  formatting := []
  mode := .initial
  returnMode := .inBody
  templateModes := []
  raw := none
  hasHead := false
  head := ⟨Arena.document, ⟨.html, "head"⟩, false⟩
  form := none
  framesetOk := true
  dropLineFeed := false
  fostering := false
  lenient := true
  tableText := []

/-- The name of the innermost open element. -/
def currentName? (b : Builder) : Option Name :=
  b.opened.head?.map (·.name)

/-- Whether the innermost open element has that name of HTML. -/
def currentIs (b : Builder) (name : String) : Bool :=
  match b.opened with
  | e :: _ => e.name.isHtml name
  | [] => false

/-- Whether the name of the innermost open element of HTML lies in a set. -/
def currentIn (b : Builder) (set : String → Bool) : Bool :=
  match b.opened with
  | e :: _ => e.name.isHtmlIn set
  | [] => false

/-- The cell that holds what stands in the root element. -/
def rootId (b : Builder) : CellId :=
  match b.opened.getLast? with
  | some e => b.arena.holder e.id
  | none => Arena.document

/-- Whether an open element satisfies `wanted` and no element inside it is a bound. -/
def reaches (bound : Name → Bool) (wanted : OpenElement → Bool) : List OpenElement → Bool
  | [] => false
  | e :: rest => if wanted e then true else if bound e.name then false else
    reaches bound wanted rest

/-- Whether an element of that name is open within the scope that `bound` limits. -/
def inScope (b : Builder) (bound : Name → Bool) (name : String) : Bool :=
  reaches bound (·.name.isHtml name) b.opened

/-- Whether a template is open. -/
def hasTemplate (b : Builder) : Bool :=
  b.opened.any (·.name.isHtml "template")

/-- The body, when it is the second element from the outside. -/
def body? (b : Builder) : Option OpenElement :=
  match b.opened.reverse with
  | _ :: e :: _ => if e.name.isHtml "body" then some e else none
  | _ => none

/-- Closes the innermost element. -/
def pop (b : Builder) : Builder :=
  { b with opened := b.opened.tail }

/-- The elements left after the innermost one that satisfies `wanted` has been closed. -/
def dropThrough (wanted : OpenElement → Bool) : List OpenElement → List OpenElement
  | [] => []
  | e :: rest => if wanted e then rest else dropThrough wanted rest

/-- Closes elements through the innermost one of that name. -/
def popThrough (b : Builder) (name : String) : Builder :=
  { b with opened := dropThrough (·.name.isHtml name) b.opened }

/-- Closes elements through the innermost one of HTML whose name lies in a set. -/
def popThroughIn (b : Builder) (set : String → Bool) : Builder :=
  { b with opened := dropThrough (·.name.isHtmlIn set) b.opened }

/-- Closes elements until the innermost one satisfies `stop`. -/
def popTo (b : Builder) (stop : Name → Bool) : Builder :=
  { b with opened := b.opened.dropWhile fun e => !stop e.name }

/-- Closes elements as long as they are closed silently. -/
def closeImplied (b : Builder) (implied : String → Bool) : Builder :=
  { b with opened := b.opened.dropWhile fun e => e.name.isHtmlIn implied }

/-- Closes elements that are closed silently, except those of that name. -/
def closeImpliedExcept (b : Builder) (name : String) : Builder :=
  b.closeImplied fun n => endsImplicitly n && n != name

/-- Takes an element off the stack, wherever it is. -/
def removeOpen (b : Builder) (id : CellId) : Builder :=
  { b with opened := b.opened.filter fun e => e.id ≠ id }

/-- Closes the open paragraph. -/
def closeParagraph (b : Builder) : Builder :=
  (b.closeImpliedExcept "p").popThrough "p"

/-- Closes an open paragraph in reach. -/
def closeParagraphInScope (b : Builder) : Builder :=
  if b.inScope Name.boundsButton "p" then b.closeParagraph else b

/-- Where the next node goes. -/
inductive Place where
  /-- At the end of a cell's children. -/
  | inside (parent : CellId)
  | before (sibling : CellId)

/-- The place outside of a table for its misplaced content. -/
def fosterPlace (b : Builder) : List OpenElement → Place
  | [] => .inside b.rootId
  | e :: rest =>
    if e.name.isHtml "template" then .inside (b.arena.holder e.id)
    else if e.name.isHtml "table" then
      if (b.arena.parent? e.id).isSome then .before e.id
      else
        match rest with
        | outer :: _ => .inside outer.id
        | [] => .inside b.rootId
    else b.fosterPlace rest

/-- The place of a node that is to go into an open element. -/
def placeIn (b : Builder) (target : OpenElement) : Place :=
  if b.fostering && target.name.isHtmlIn isTablePart then b.fosterPlace b.opened
  else .inside (b.arena.holder target.id)

/-- The place of the next node. -/
def place (b : Builder) : Place :=
  match b.opened with
  | [] => .inside Arena.document
  | e :: _ => b.placeIn e

/-- Puts a cell at a place. -/
def putAt (b : Builder) (id : CellId) : Place → Builder
  | .inside parent => { b with arena := b.arena.append parent id }
  | .before sibling => { b with arena := b.arena.insertBefore sibling id }

/-- Adds a character of text at the current place. -/
def insertChar (b : Builder) (c : Char) : Builder :=
  match b.place with
  | .inside parent => { b with arena := b.arena.appendChar parent c }
  | .before sibling => { b with arena := b.arena.insertCharBefore sibling c }

/-- Adds a comment at the current place. -/
def insertComment (b : Builder) (data : Text) : Builder :=
  let place := b.place
  let (id, arena) := b.arena.add (.comment data)
  { b with arena }.putAt id place

/-- Adds a comment at the end of a cell's children. -/
def appendComment (b : Builder) (parent : CellId) (data : Text) : Builder :=
  let (id, arena) := b.arena.add (.comment data)
  { b with arena := arena.append parent id }

/-- Whether an annotation of MathML with these attributes holds HTML. -/
def annotationHoldsHtml (name : Name) (attributes : List Markup.Attribute) : Bool :=
  name.space == .mathml && name.local == "annotation-xml" &&
    match attributes.lookup "encoding".toList with
    | some value =>
      Text.eqIgnoreAsciiCase value "text/html".toList ||
        Text.eqIgnoreAsciiCase value "application/xhtml+xml".toList
    | none => false

/-- Creates an element. A template of HTML also gets a cell for its contents. -/
def create (b : Builder) (name : Name) (attributes : List Markup.Attribute) :
    OpenElement × Builder :=
  if name.isHtml "template" then
    let (contents, arena) := b.arena.add .root
    let (id, arena) := arena.add (.element name attributes (some contents))
    (⟨id, name, false⟩, { b with arena })
  else
    let (id, arena) := b.arena.add (.element name attributes none)
    (⟨id, name, annotationHoldsHtml name attributes⟩, { b with arena })

/-- Creates an element at the current place without opening it. -/
def insertClosed (b : Builder) (name : Name) (attributes : List Markup.Attribute) :
    OpenElement × Builder :=
  let place := b.place
  let (e, b) := b.create name attributes
  (e, b.putAt e.id place)

/-- Opens an element. -/
def push (b : Builder) (e : OpenElement) : Builder :=
  { b with opened := e :: b.opened }

/-- Creates an element at the current place and opens it. -/
def insertOpened (b : Builder) (name : Name) (attributes : List Markup.Attribute) :
    OpenElement × Builder :=
  let (e, b) := b.insertClosed name attributes
  (e, b.push e)

/-- Opens the element of HTML that a tag starts. -/
def insert (b : Builder) (tag : Tag) : Builder :=
  (b.insertOpened ⟨.html, tag.name⟩ tag.attributes).2

/-- Adds the element of HTML that a tag starts without opening it. -/
def insertVoid (b : Builder) (tag : Tag) : Builder :=
  (b.insertClosed ⟨.html, tag.name⟩ tag.attributes).2

/-- Opens an element of HTML that no tag started. -/
def insertImplied (b : Builder) (name : String) : Builder :=
  b.insert (.plain name)

/-- Opens the root element. -/
def insertRoot (b : Builder) (attributes : List Markup.Attribute) : Builder :=
  let (e, b) := b.create ⟨.html, "html"⟩ attributes
  { b with arena := b.arena.append Arena.document e.id }.push e

/-- Opens an element of raw text. -/
def insertRaw (b : Builder) (tag : Tag) (kind : RawKind) : Builder :=
  { b.insert tag with returnMode := b.mode, mode := .text, raw := some kind }

/-- Moves to another mode. -/
def goto (b : Builder) (mode : Mode) : Builder :=
  { b with mode }

/-- Rules out a set of frames. -/
def noFrameset (b : Builder) : Builder :=
  { b with framesetOk := false }

/-- The mode of an option list among the elements outside it. -/
def selectMode : List OpenElement → Mode
  | [] => .inSelect
  | e :: rest =>
    if e.name.isHtml "template" then .inSelect
    else if e.name.isHtml "table" then .inSelectInTable
    else selectMode rest

/-- The mode that the innermost open elements call for. -/
def modeFor (b : Builder) : List OpenElement → Mode
  | [] => .inBody
  | e :: rest =>
    if e.name.space ≠ .html then b.modeFor rest
    else
      match e.name.local with
      | "select" => selectMode rest
      | "td" | "th" => if rest.isEmpty then b.modeFor rest else .inCell
      | "tr" => .inRow
      | "tbody" | "thead" | "tfoot" => .inTableBody
      | "caption" => .inCaption
      | "colgroup" => .inColumnGroup
      | "table" => .inTable
      | "template" => b.templateModes.headD .inBody
      | "head" => if rest.isEmpty then b.modeFor rest else .inHead
      | "body" => .inBody
      | "frameset" => .inFrameset
      | "html" => if b.hasHead then .afterHead else .beforeHead
      | _ => b.modeFor rest

/-- The mode that the open elements call for. -/
def resetMode (b : Builder) : Mode :=
  b.modeFor b.opened

end Builder

end SlimTemplate.Html
