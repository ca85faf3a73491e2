import SlimTemplate.Html.Construction.Body

/-!
# Tables

The modes of a table and its parts. Missing sections and rows are opened, parts close each other,
and content that has no place in a table goes before it.

## Main definitions

* `Html.Builder.takeInTable`, `Html.Builder.takeInTableText`: the table itself.
* `Html.Builder.takeInCaption`, `Html.Builder.takeInColumnGroup`,
  `Html.Builder.takeInTableBody`, `Html.Builder.takeInRow`, `Html.Builder.takeInCell`: its parts.
-/

namespace SlimTemplate.Html

/-- The sections of a table. -/
def isSection : String → Bool
  | "tbody" | "tfoot" | "thead" => true
  | _ => false

/-- The parts of a table that stand outside of rows. -/
def isOuterPart : String → Bool
  | "caption" | "col" | "colgroup" | "tbody" | "tfoot" | "thead" => true
  | _ => false

/-- The parts of a table whose start closes a cell or a caption. -/
def isInnerPart (name : String) : Bool :=
  isOuterPart name || isCell name || name = "tr"

/-- The end tags that never close anything in a section of a table. -/
def isStrayEnd : String → Bool
  | "body" | "caption" | "col" | "colgroup" | "html" => true
  | _ => false

namespace Builder

/-- Starts an element directly in a table. -/
def insertInTable (b : Builder) (tag : Tag) : Builder :=
  (b.popTo Name.boundsTable).insert tag

/-- Characters in a table are held back until it is known whether they are white space. -/
def takeTableChar (b : Builder) (token : Token) : Step :=
  if b.currentIn isTablePart then
    .again { b with returnMode := b.mode, mode := .inTableText } token
  else b.takeFostered token

/-- In a table. -/
def takeInTable (b : Builder) (token : Token) : Step :=
  match token with
  | .char _ => b.takeTableChar token
  | .comment data => .done (b.insertComment data)
  | .stop => b.takeInBody token
  | .doctype _ | .fault => .done b
  | .tag tag =>
    match tag.kind with
    | .start =>
      match tag.name with
      | "caption" =>
        .done (((b.popTo Name.boundsTable).markFormatting.insert tag).goto .inCaption)
      | "colgroup" => .done ((b.insertInTable tag).goto .inColumnGroup)
      | "col" => .again ((b.insertInTable (.plain "colgroup")).goto .inColumnGroup) token
      | "tbody" | "tfoot" | "thead" => .done ((b.insertInTable tag).goto .inTableBody)
      | "td" | "th" | "tr" =>
        .again ((b.insertInTable (.plain "tbody")).goto .inTableBody) token
      | "table" =>
        if b.inScope Name.boundsTable "table" then
          let b := b.popThrough "table"
          .again (b.goto b.resetMode) token
        else .done b
      | "style" | "script" | "template" => b.takeInHead token
      | "input" => if tag.isHidden then .done (b.insertVoid tag) else b.takeFostered token
      | "form" =>
        if b.hasTemplate || b.form.isSome then .done b
        else
          let (e, b) := b.insertClosed ⟨.html, "form"⟩ tag.attributes
          .done { b with form := some e.id }
      | _ => b.takeFostered token
    | .stop =>
      match tag.name with
      | "table" =>
        if b.inScope Name.boundsTable "table" then
          let b := b.popThrough "table"
          .done (b.goto b.resetMode)
        else .done b
      | "template" => .done b.closeTemplate
      | name =>
        if isStrayEnd name || isInnerPart name then .done b else b.takeFostered token

/-- Takes held-back characters by the rules of the body, before the table. -/
def fosterText (b : Builder) (text : Text) : Builder :=
  text.foldl
    (fun b c =>
      match b.takeFostered (.char c) with
      | .done b => b
      | .again b _ => b)
    b

/-- In text between the parts of a table. White space stays; other text goes before the table. -/
def takeInTableText (b : Builder) (token : Token) : Step :=
  match token with
  | .char c => .done (if c = '\x00' then b else { b with tableText := c :: b.tableText })
  | token =>
    -- One character that is not white space sends the whole text before the table.
    let text := b.tableText.reverse
    let b := { b with tableText := [] }
    let b := if text.all isSpace then text.foldl insertChar b else b.fosterText text
    .again (b.goto b.returnMode) token

/-- In the caption of a table. -/
def takeInCaption (b : Builder) (token : Token) : Step :=
  let close (next : Builder → Step) : Step :=
    if b.inScope Name.boundsTable "caption" then
      next ((((b.closeImplied endsImplicitly).popThrough "caption").clearFormatting).goto
        .inTable)
    else .done b
  match token with
  | .tag tag =>
    match tag.kind with
    | .start =>
      if isInnerPart tag.name then close fun b => .again b token else b.takeInBody token
    | .stop =>
      if tag.name = "caption" then close .done
      else if tag.name = "table" then close fun b => .again b token
      else if isStrayEnd tag.name || isInnerPart tag.name then .done b
      else b.takeInBody token
  | token => b.takeInBody token

/-- In a group of columns. -/
def takeInColumnGroup (b : Builder) (token : Token) : Step :=
  let leave : Step :=
    if b.currentIs "colgroup" then .again (b.pop.goto .inTable) token else .done b
  match token with
  | .char c => if isSpace c then .done (b.insertChar c) else leave
  | .comment data => .done (b.insertComment data)
  | .stop => b.takeInBody token
  | .doctype _ | .fault => .done b
  | .tag tag =>
    match tag.kind with
    | .start =>
      match tag.name with
      | "html" => b.takeInBody token
      | "col" => .done (b.insertVoid tag)
      | "template" => b.takeInHead token
      | _ => leave
    | .stop =>
      match tag.name with
      | "colgroup" =>
        .done (if b.currentIs "colgroup" then b.pop.goto .inTable else b)
      | "col" => .done b
      | "template" => .done b.closeTemplate
      | _ => leave

/-- Whether a section of a table, or the table itself, is in reach. A head section alone does not
count. -/
def sectionInScope (b : Builder) : Bool :=
  reaches Name.boundsTable
    (·.name.isHtmlIn fun n => n = "table" || n = "tbody" || n = "tfoot") b.opened

/-- In a section of a table. -/
def takeInTableBody (b : Builder) (token : Token) : Step :=
  let leave : Step :=
    if b.sectionInScope then .again ((b.popTo Name.holdsRows).pop.goto .inTable) token
    else .done b
  match token with
  | .tag tag =>
    match tag.kind with
    | .start =>
      if tag.name = "tr" then .done (((b.popTo Name.holdsRows).insert tag).goto .inRow)
      else if isCell tag.name then
        .again (((b.popTo Name.holdsRows).insertImplied "tr").goto .inRow) token
      else if isOuterPart tag.name then leave
      else b.takeInTable token
    | .stop =>
      if isSection tag.name then
        .done (if b.inScope Name.boundsTable tag.name then
          (b.popTo Name.holdsRows).pop.goto .inTable else b)
      else if tag.name = "table" then leave
      else if isStrayEnd tag.name || isCell tag.name || tag.name = "tr" then .done b
      else b.takeInTable token
  | token => b.takeInTable token

/-- In a row of a table. -/
def takeInRow (b : Builder) (token : Token) : Step :=
  let closed := (b.popTo Name.holdsCells).pop.goto .inTableBody
  let hasRow := b.inScope Name.boundsTable "tr"
  match token with
  | .tag tag =>
    match tag.kind with
    | .start =>
      if isCell tag.name then
        .done ((((b.popTo Name.holdsCells).insert tag).goto .inCell).markFormatting)
      else if isOuterPart tag.name || tag.name = "tr" then
        if hasRow then .again closed token else .done b
      else b.takeInTable token
    | .stop =>
      if tag.name = "tr" then .done (if hasRow then closed else b)
      else if tag.name = "table" then if hasRow then .again closed token else .done b
      else if isSection tag.name then
        if b.inScope Name.boundsTable tag.name && hasRow then .again closed token else .done b
      else if isStrayEnd tag.name || isCell tag.name then .done b
      else b.takeInTable token
  | token => b.takeInTable token

/-- Closes the open cell. -/
def closeCell (b : Builder) : Builder :=
  (((b.closeImplied endsImplicitly).popThroughIn isCell).clearFormatting).goto .inRow

/-- In a cell of a table. -/
def takeInCell (b : Builder) (token : Token) : Step :=
  match token with
  | .tag tag =>
    match tag.kind with
    | .start =>
      if isInnerPart tag.name then
        if reaches Name.boundsTable (·.name.isHtmlIn isCell) b.opened then
          .again b.closeCell token
        else .done b
      else b.takeInBody token
    | .stop =>
      if isCell tag.name then
        .done (if b.inScope Name.boundsTable tag.name then
          (((b.closeImplied endsImplicitly).popThrough tag.name).clearFormatting).goto .inRow
          else b)
      else if isStrayEnd tag.name then .done b
      else if isSection tag.name || tag.name = "table" || tag.name = "tr" then
        if b.inScope Name.boundsTable tag.name then .again b.closeCell token else .done b
      else b.takeInBody token
  | token => b.takeInBody token

end Builder

end SlimTemplate.Html
