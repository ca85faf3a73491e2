import SlimTemplate.Html.Construction.Foreign
import SlimTemplate.Html.Construction.Head

/-!
# The body

The rules of the body, which most other modes fall back on: blocks close open paragraphs,
formatting elements are opened again, headings, list items, buttons and links close their like.

## Main definitions

* `Html.Builder.takeInBody`: the rules of the body.
* `Html.Builder.takeInTemplate`: the rules of a template.
* `Html.Builder.takeAfterBody`, `Html.Builder.takeAfterRoot`: the rules after the body.
-/

namespace SlimTemplate.Html

/-- The blocks whose start closes an open paragraph and whose end closes what is open inside. -/
def isBlock : String → Bool
  | "address" | "article" | "aside" | "blockquote" | "center" | "details" | "dialog" | "dir"
  | "div" | "dl" | "fieldset" | "figcaption" | "figure" | "footer" | "header" | "hgroup"
  | "main" | "menu" | "nav" | "ol" | "search" | "section" | "summary" | "ul" => true
  | _ => false

/-- The blocks that only an end tag of their own closes. -/
def isClosedBlock (name : String) : Bool :=
  isBlock name || name = "button" || name = "listing" || name = "pre"

/-- The tags that have no place in a body. -/
def isStrayInBody : String → Bool
  | "caption" | "col" | "colgroup" | "frame" | "head" | "tbody" | "td" | "tfoot" | "th"
  | "thead" | "tr" => true
  | _ => false

/-- The elements with text formatted on its own. -/
def isApart : String → Bool
  | "applet" | "marquee" | "object" => true
  | _ => false

/-- The elements without content that stand in a line of text. -/
def isInlineVoid : String → Bool
  | "area" | "br" | "embed" | "img" | "keygen" | "wbr" => true
  | _ => false

namespace Builder

/-- The list item, term or definition that a new one closes. -/
def openItem? (name : String) : List OpenElement → Option String
  | [] => none
  | e :: rest =>
    let alike :=
      if name = "li" then e.name.isHtml "li" else e.name.isHtml "dd" || e.name.isHtml "dt"
    if alike then some e.name.local
    else if e.name.isHtmlIn bindsListItem then none
    else openItem? name rest

/-- Starts a list item, a term or a definition. -/
def insertItem (b : Builder) (tag : Tag) : Builder :=
  let b := b.noFrameset
  let b :=
    match openItem? tag.name b.opened with
    | some name => (b.closeImpliedExcept name).popThrough name
    | none => b
  b.closeParagraphInScope.insert tag

/-- Starts a form, unless one is open. -/
def insertForm (b : Builder) (tag : Tag) : Builder :=
  if b.form.isSome && !b.hasTemplate then b
  else
    let (e, b) := b.closeParagraphInScope.insertOpened ⟨.html, "form"⟩ tag.attributes
    if b.hasTemplate then b else { b with form := some e.id }

/-- Ends the open form. -/
def closeForm (b : Builder) : Builder :=
  if b.hasTemplate then
    if b.inScope Name.boundsDefault "form" then
      (b.closeImplied endsImplicitly).popThrough "form"
    else b
  else
    match b.form with
    | none => b
    | some id =>
      let b := { b with form := none }
      if reaches Name.boundsDefault (·.id == id) b.opened then
        (b.closeImplied endsImplicitly).removeOpen id
      else b

/-- Starts a set of frames in place of a body that is still empty. -/
def replaceBody (b : Builder) (tag : Tag) : Builder :=
  if !b.framesetOk then b
  else
    match b.body? with
    | none => b
    | some body =>
      let b := { b with arena := b.arena.detach body.id }
      let b := { b with opened := b.opened.drop (b.opened.length - 1) }
      (b.insert tag).goto .inFrameset

/-- A further body tag adds the attributes that the body lacks. -/
def mergeBody (b : Builder) (tag : Tag) : Builder :=
  match b.body? with
  | some body =>
    if b.hasTemplate then b
    else { b with arena := b.arena.addMissing body.id tag.attributes }.noFrameset
  | none => b

/-- Starts a button, which closes an open one. -/
def insertButton (b : Builder) (tag : Tag) : Builder :=
  let b :=
    if b.inScope Name.boundsDefault "button" then
      (b.closeImplied endsImplicitly).popThrough "button"
    else b
  (b.reopenFormatting.insert tag).noFrameset

/-- The mode of a list of options that starts in the given mode. -/
def modeOfSelect : Mode → Mode
  | .inTable | .inCaption | .inTableBody | .inRow | .inCell => .inSelectInTable
  | _ => .inSelect

/-- A line break. -/
def insertBreak (b : Builder) (tag : Tag) : Builder :=
  (b.reopenFormatting.insertVoid tag).noFrameset

/-- The start tags of the body that take their name as it is. -/
def startInBody (b : Builder) (tag : Tag) : Builder :=
  let name := tag.name
  if isBlock name then b.closeParagraphInScope.insert tag
  else if isHeading name then
    let b := b.closeParagraphInScope
    (if b.currentIn isHeading then b.pop else b).insert tag
  else if name ≠ "a" && name ≠ "nobr" && isFormatting name then
    b.reopenFormatting.insertFormatting tag
  else if isApart name then ((b.reopenFormatting.insert tag).markFormatting).noFrameset
  else if isInlineVoid name then b.insertBreak tag
  else if isStrayInBody name then b
  else
    match name with
    | "html" => b.mergeRoot tag
    | "body" => b.mergeBody tag
    | "frameset" => b.replaceBody tag
    | "pre" | "listing" =>
      { b.closeParagraphInScope.insert tag with dropLineFeed := true }.noFrameset
    | "p" => b.closeParagraphInScope.insert tag
    | "form" => b.insertForm tag
    | "li" | "dd" | "dt" => b.insertItem tag
    | "plaintext" => { b.closeParagraphInScope.insert tag with raw := some .endless }
    | "button" => b.insertButton tag
    | "a" => b.closeOuterLink.reopenFormatting.insertFormatting tag
    | "nobr" =>
      let b := b.reopenFormatting
      let b :=
        if b.inScope Name.boundsDefault "nobr" then (b.closeFormatting "nobr").reopenFormatting
        else b
      b.insertFormatting tag
    | "table" =>
      let b := if b.lenient then b else b.closeParagraphInScope
      (b.insert tag).noFrameset.goto .inTable
    | "input" =>
      let b := b.reopenFormatting.insertVoid tag
      if tag.isHidden then b else b.noFrameset
    | "param" | "source" | "track" => b.insertVoid tag
    | "hr" => (b.closeParagraphInScope.insertVoid tag).noFrameset
    | "image" => b.insertBreak { tag with name := "img" }
    | "textarea" =>
      { b.noFrameset with dropLineFeed := true }.insertRaw tag .references
    | "xmp" => b.closeParagraphInScope.reopenFormatting.noFrameset.insertRaw tag .verbatim
    | "iframe" => b.noFrameset.insertRaw tag .verbatim
    | "noembed" | "noscript" => b.insertRaw tag .verbatim
    | "select" => (b.reopenFormatting.insert tag).noFrameset.goto (modeOfSelect b.mode)
    | "optgroup" | "option" =>
      (if b.currentIs "option" then b.pop else b).reopenFormatting.insert tag
    | "rb" | "rtc" =>
      (if b.inScope Name.boundsDefault "ruby" then b.closeImplied endsImplicitly else b).insert
        tag
    | "rp" | "rt" =>
      (if b.inScope Name.boundsDefault "ruby" then b.closeImpliedExcept "rtc" else b).insert tag
    -- Formatting that was cut off stays so in front of a drawing or a formula.
    | "math" => b.enterForeign .mathml tag
    | "svg" => b.enterForeign .svg tag
    | _ => b.reopenFormatting.insert tag

/-- The end tags of the body, but for those of body and root. -/
def stopInBody (b : Builder) (name : String) : Builder :=
  if isClosedBlock name then
    if b.inScope Name.boundsDefault name then
      (b.closeImplied endsImplicitly).popThrough name
    else b
  else if isHeading name then
    if reaches Name.boundsDefault (·.name.isHtmlIn isHeading) b.opened then
      (b.closeImplied endsImplicitly).popThroughIn isHeading
    else b
  else if isFormatting name then b.closeFormatting name
  else if isApart name then
    if b.inScope Name.boundsDefault name then
      ((b.closeImplied endsImplicitly).popThrough name).clearFormatting
    else b
  else
    match name with
    | "form" => b.closeForm
    | "p" =>
      (if b.inScope Name.boundsButton "p" then b else b.insertImplied "p").closeParagraph
    | "li" =>
      if b.inScope Name.boundsListItem "li" then (b.closeImpliedExcept "li").popThrough "li"
      else b
    | "dd" | "dt" =>
      if b.inScope Name.boundsDefault name then (b.closeImpliedExcept name).popThrough name
      else b
    | "br" => b.insertBreak (.plain "br")
    | name => b.closeOther name

/-- The end of the text leaves the open templates one by one. -/
def stopInTemplate (b : Builder) : Step :=
  if b.hasTemplate then .again b.leaveTemplate .stop else .done b

/-- In the body. -/
def takeInBody (b : Builder) (token : Token) : Step :=
  match token with
  | .char c =>
    if c = '\x00' then .done b
    else
      let b := b.reopenFormatting
      .done ((if isSpace c then b else b.noFrameset).insertChar c)
  | .comment data => .done (b.insertComment data)
  | .stop => if b.templateModes.isEmpty then .done b else b.stopInTemplate
  | .doctype _ | .fault => .done b
  | .tag tag =>
    match tag.kind with
    | .start =>
      if isHeadElement tag.name then b.takeInHead token else .done (b.startInBody tag)
    | .stop =>
      match tag.name with
      | "template" => .done b.closeTemplate
      | "body" =>
        .done (if b.inScope Name.boundsDefault "body" then b.goto .afterBody else b)
      | "html" =>
        if b.inScope Name.boundsDefault "body" then .again (b.goto .afterBody) token
        else .done b
      | name => .done (b.stopInBody name)

/-- Takes a token by the rules of the body, with misplaced content going before the table. -/
def takeFostered (b : Builder) (token : Token) : Step :=
  Step.mapState (fun b => { b with fostering := false })
    ({ b with fostering := true }.takeInBody token)

/-- In a template: the first tag decides as which part of a document the rest is read. -/
def takeInTemplate (b : Builder) (token : Token) : Step :=
  let enter (mode : Mode) : Step :=
    .again ({ b with templateModes := mode :: b.templateModes.tail }.goto mode) token
  match token with
  | .char c => if c = '\x00' then .done b else b.takeInBody token
  | .comment _ => b.takeInBody token
  | .stop => b.stopInTemplate
  | .doctype _ | .fault => .done b
  | .tag tag =>
    match tag.kind with
    | .start =>
      if isHeadElement tag.name then b.takeInHead token
      else
        match tag.name with
        | "caption" | "colgroup" | "tbody" | "tfoot" | "thead" => enter .inTable
        | "col" => enter .inColumnGroup
        | "tr" => enter .inTableBody
        | "td" | "th" => enter .inRow
        | _ => enter .inBody
    | .stop => if tag.name = "template" then .done b.closeTemplate else .done b

/-- After the body. -/
def takeAfterBody (b : Builder) (token : Token) : Step :=
  let resume : Step := .again (b.goto .inBody) token
  match token with
  | .char c => if isSpace c then b.takeInBody token else resume
  | .comment data => .done (b.appendComment b.rootId data)
  | .stop => .done b
  | .doctype _ | .fault => resume
  | .tag tag =>
    if tag.name = "html" then
      match tag.kind with
      | .start => b.takeInBody token
      | .stop => .done (b.goto .afterAfterBody)
    else resume

/-- After the root element. -/
def takeAfterRoot (b : Builder) (token : Token) : Step :=
  let resume : Step := .again (b.goto .inBody) token
  match token with
  | .char c => if isSpace c then b.takeInBody token else resume
  | .comment data => .done (b.appendComment Arena.document data)
  | .stop => .done b
  | .doctype _ | .fault => resume
  | .tag tag => if tag.kind = .start ∧ tag.name = "html" then b.takeInBody token else resume

end Builder

end SlimTemplate.Html
