import SlimTemplate.Html.Construction.Formatting

/-!
# From the start to the end of the head

The modes before the body. White space before the root is dropped; root and head are opened
whether their tags are there or not.

## Main definitions

* `Html.Builder.takeInHead`: the rules of the head, which other modes also use for the elements
  that may stand in a head.
* `Html.Builder.takeInitial`, `Html.Builder.takeBeforeHtml`, `Html.Builder.takeBeforeHead`,
  `Html.Builder.takeAfterHead`: the other modes before the body.
-/

namespace SlimTemplate.Html

/-- The elements of a head that hold nothing. -/
def isHeadVoid : String → Bool
  | "base" | "basefont" | "bgsound" | "link" | "meta" => true
  | _ => false

/-- The elements whose tags are taken by the rules of the head wherever they stand. -/
def isHeadElement (name : String) : Bool :=
  isHeadVoid name ||
    match name with
    | "noframes" | "script" | "style" | "template" | "title" => true
    | _ => false

/-- The elements whose end tags open what is missing. -/
def opensMissing : String → Bool
  | "body" | "html" | "br" => true
  | _ => false

/-- Whether a token is white space. -/
def Token.isSpace : Token → Bool
  | .char c => Html.isSpace c
  | _ => false

/-- Whether a token is a start tag of that name. -/
def Token.starts (token : Token) (name : String) : Bool :=
  match token with
  | .tag t => t.kind = .start && t.name = name
  | _ => false

/-- Whether a token is an end tag whose name is not in a set. -/
def Token.stopsOther (token : Token) (set : String → Bool) : Bool :=
  match token with
  | .tag t => t.kind = .stop && !set t.name
  | _ => false

namespace Builder

/-- A further root tag adds the attributes that the root lacks. -/
def mergeRoot (b : Builder) (tag : Tag) : Builder :=
  if b.hasTemplate then b else { b with arena := b.arena.addMissing b.rootId tag.attributes }

/-- Opens a template. -/
def openTemplate (b : Builder) (tag : Tag) : Builder :=
  let b := ((b.insert tag).markFormatting.noFrameset).goto .inTemplate
  { b with templateModes := .inTemplate :: b.templateModes }

/-- Leaves the innermost template. -/
def leaveTemplate (b : Builder) : Builder :=
  let b := (b.popThrough "template").clearFormatting
  let b := { b with templateModes := b.templateModes.tail }
  b.goto b.resetMode

/-- Closes the innermost template. -/
def closeTemplate (b : Builder) : Builder :=
  if b.hasTemplate then (b.closeImplied endsWithTemplate).leaveTemplate else b

/-- Before the document type. -/
def takeInitial (b : Builder) (token : Token) : Step :=
  match token with
  | .comment data => .done (b.appendComment Arena.document data)
  | token => if token.isSpace then .done b else .again (b.goto .beforeHtml) token

/-- Before the root element. -/
def takeBeforeHtml (b : Builder) (token : Token) : Step :=
  match token with
  | .comment data => .done (b.appendComment Arena.document data)
  | .tag ⟨.start, "html", attributes, _⟩ => .done ((b.insertRoot attributes).goto .beforeHead)
  | token =>
    if token.isSpace || token.stopsOther (fun n => n = "head" || opensMissing n) then .done b
    else .again ((b.insertRoot []).goto .beforeHead) token

/-- Opens the head. -/
def insertHead (b : Builder) (tag : Tag) : Builder :=
  let (head, b) := b.insertOpened ⟨.html, "head"⟩ tag.attributes
  { b with head, hasHead := true }.goto .inHead

/-- Before the head. -/
def takeBeforeHead (b : Builder) (token : Token) : Step :=
  match token with
  | .comment data => .done (b.insertComment data)
  | token =>
    if token.isSpace || token.stopsOther (fun n => n = "head" || opensMissing n) then .done b
    else
      match token with
      | .tag tag =>
        if token.starts "html" then .done (b.mergeRoot tag)
        else if token.starts "head" then .done (b.insertHead tag)
        else .again (b.insertHead (.plain "head")) token
      | token => .again (b.insertHead (.plain "head")) token

/-- In the head, or with an element that is taken as in a head. -/
def takeInHead (b : Builder) (token : Token) : Step :=
  let leave : Step := .again (b.pop.goto .afterHead) token
  match token with
  | .char c => if Html.isSpace c then .done (b.insertChar c) else leave
  | .comment data => .done (b.insertComment data)
  | .tag tag =>
    match tag.kind with
    | .start =>
      if isHeadVoid tag.name then .done (b.insertVoid tag)
      else
        match tag.name with
        | "html" => .done (b.mergeRoot tag)
        | "title" => .done (b.insertRaw tag .references)
        | "noframes" | "style" | "noscript" => .done (b.insertRaw tag .verbatim)
        | "script" => .done (b.insertRaw tag .script)
        | "template" => .done (b.openTemplate tag)
        | "head" => .done b
        | _ => leave
    | .stop =>
      match tag.name with
      | "head" => .done (b.pop.goto .afterHead)
      | "template" => .done b.closeTemplate
      | name => if opensMissing name then leave else .done b
  | _ => leave

/-- Changes the state that a step leads to. -/
def Step.mapState (f : Builder → Builder) : Step → Step
  | .done b => .done (f b)
  | .again b token => .again (f b) token

/-- Between head and body. -/
def takeAfterHead (b : Builder) (token : Token) : Step :=
  let enter : Step := .again ((b.insertImplied "body").goto .inBody) token
  match token with
  | .char c => if Html.isSpace c then .done (b.insertChar c) else enter
  | .comment data => .done (b.insertComment data)
  | .tag tag =>
    match tag.kind with
    | .start =>
      if isHeadElement tag.name then
        Step.mapState (fun b' => b'.removeOpen b.head.id) ((b.push b.head).takeInHead token)
      else
        match tag.name with
        | "html" => .done (b.mergeRoot tag)
        | "body" => .done ((b.insert tag).noFrameset.goto .inBody)
        | "frameset" => .done ((b.insert tag).goto .inFrameset)
        | "head" => .done b
        | _ => enter
    | .stop =>
      match tag.name with
      | "template" => .done b.closeTemplate
      | name => if opensMissing name then enter else .done b
  | _ => enter

end Builder

end SlimTemplate.Html
