import SlimTemplate.Html.Construction.Table

/-!
# Option lists and frames

The modes of a list of options, which takes options and their groups only, and those of a document
of frames.

## Main definitions

* `Html.Builder.takeInSelect`, `Html.Builder.takeInSelectInTable`: a list of options.
* `Html.Builder.takeInFrameset`, `Html.Builder.takeAfterFrameset`,
  `Html.Builder.takeAfterFramesetRoot`: a document of frames.
-/

namespace SlimTemplate.Html.Builder

/-- Closes the list of options. -/
def closeSelect (b : Builder) : Builder :=
  let b := b.popThrough "select"
  b.goto b.resetMode

/-- Closes an open option. -/
def closeOption (b : Builder) : Builder :=
  if b.currentIs "option" then b.pop else b

/-- Closes an open option and an open group of options. -/
def closeOptionGroup (b : Builder) : Builder :=
  let b := b.closeOption
  if b.currentIs "optgroup" then b.pop else b

/-- The end tag of a group of options. -/
def stopOptionGroup (b : Builder) : Builder :=
  match b.opened with
  | e :: outer :: _ =>
    if e.name.isHtml "option" && outer.name.isHtml "optgroup" then b.pop.pop
    else if e.name.isHtml "optgroup" then b.pop
    else b
  | _ => b

/-- In a list of options. -/
def takeInSelect (b : Builder) (token : Token) : Step :=
  let hasSelect := b.inScope Name.boundsSelect "select"
  match token with
  | .char c => .done (if c = '\x00' then b else b.insertChar c)
  | .comment data => .done (b.insertComment data)
  | .stop => b.takeInBody token
  | .doctype _ | .fault => .done b
  | .tag tag =>
    match tag.kind with
    | .start =>
      match tag.name with
      | "html" => b.takeInBody token
      | "option" => .done (b.closeOption.insert tag)
      | "optgroup" => .done (b.closeOptionGroup.insert tag)
      | "hr" => .done (b.closeOptionGroup.insertVoid tag)
      | "select" => .done (if hasSelect then b.closeSelect else b)
      | "input" | "keygen" | "textarea" =>
        if hasSelect then .again b.closeSelect token else .done b
      | "script" | "template" => b.takeInHead token
      | _ => .done b
    | .stop =>
      match tag.name with
      | "optgroup" => .done b.stopOptionGroup
      | "option" => .done b.closeOption
      | "select" => .done (if hasSelect then b.closeSelect else b)
      | "template" => .done b.closeTemplate
      | _ => .done b

/-- In a list of options inside a table, whose parts close the list. -/
def takeInSelectInTable (b : Builder) (token : Token) : Step :=
  match token with
  | .tag tag =>
    let isPart := tag.name = "caption" || tag.name = "table" || isSection tag.name ||
      tag.name = "tr" || isCell tag.name
    if !isPart then b.takeInSelect token
    else
      match tag.kind with
      | .start => .again b.closeSelect token
      | .stop =>
        if b.inScope Name.boundsTable tag.name then .again b.closeSelect token else .done b
  | token => b.takeInSelect token

/-- In a set of frames. -/
def takeInFrameset (b : Builder) (token : Token) : Step :=
  match token with
  | .char c => .done (if isSpace c then b.insertChar c else b)
  | .comment data => .done (b.insertComment data)
  | .tag tag =>
    match tag.kind with
    | .start =>
      match tag.name with
      | "html" => b.takeInBody token
      | "frameset" => .done (b.insert tag)
      | "frame" => .done (b.insertVoid tag)
      | "noframes" => b.takeInHead token
      | _ => .done b
    | .stop =>
      if tag.name = "frameset" && b.opened.length ≠ 1 then
        let b := b.pop
        .done (if b.currentIs "frameset" then b else b.goto .afterFrameset)
      else .done b
  | _ => .done b

/-- After the set of frames. -/
def takeAfterFrameset (b : Builder) (token : Token) : Step :=
  match token with
  | .char c => .done (if isSpace c then b.insertChar c else b)
  | .comment data => .done (b.insertComment data)
  | .tag tag =>
    match tag.kind with
    | .start =>
      match tag.name with
      | "html" => b.takeInBody token
      | "noframes" => b.takeInHead token
      | _ => .done b
    | .stop => .done (if tag.name = "html" then b.goto .afterAfterFrameset else b)
  | _ => .done b

/-- After the root element of a document of frames. -/
def takeAfterFramesetRoot (b : Builder) (token : Token) : Step :=
  match token with
  | .char c => if isSpace c then b.takeInBody token else .done b
  | .comment data => .done (b.appendComment Arena.document data)
  | .tag tag =>
    match tag.kind with
    | .start =>
      match tag.name with
      | "html" => b.takeInBody token
      | "noframes" => b.takeInHead token
      | _ => .done b
    | .stop => .done b
  | _ => .done b

end SlimTemplate.Html.Builder
