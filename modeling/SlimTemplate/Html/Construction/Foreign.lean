import SlimTemplate.Html.Construction.Formatting
import SlimTemplate.Html.Token.Scan

/-!
# Foreign content

Inside `svg` and `math` elements tags belong to the vocabulary of the element they stand in, until
a tag of HTML breaks out. A few elements of these vocabularies hold HTML again.

## Main definitions

* `Html.Builder.isForeign`: whether a token is taken by the rules of foreign content.
* `Html.Builder.insertForeign`: opens an element of SVG or MathML.
* `Html.breaksOut`: the tags of HTML that end foreign content.
-/

namespace SlimTemplate.Html

/-- The tags of HTML that end foreign content. -/
def breaksOut (tag : Tag) : Bool :=
  match tag.name with
  | "b" | "big" | "blockquote" | "body" | "br" | "center" | "code" | "dd" | "div" | "dl" | "dt"
  | "em" | "embed" | "h1" | "h2" | "h3" | "h4" | "h5" | "h6" | "head" | "hr" | "i" | "img"
  | "li" | "listing" | "menu" | "meta" | "nobr" | "ol" | "p" | "pre" | "ruby" | "s" | "small"
  | "span" | "strong" | "strike" | "sub" | "sup" | "table" | "tt" | "u" | "ul" | "var" => true
  | "font" =>
    tag.attributes.any fun (key, _) =>
      key = "color".toList || key = "face".toList || key = "size".toList
  | _ => false

namespace Builder

/-- Whether the innermost open element is foreign, so that character data may be read. -/
def inForeign (b : Builder) : Bool :=
  match b.opened with
  | e :: _ => e.name.space ≠ .html
  | [] => false

/-- Whether a token is taken by the rules of foreign content. -/
def isForeign (b : Builder) (token : Token) : Bool :=
  match b.opened, token with
  | [], _ => false
  | _, .stop => false
  | e :: _, token =>
    if e.name.space = .html then false
    else
      match token with
      | .char _ => !(e.name.holdsMathText || e.name.holdsSvgHtml || e.holdsHtml)
      | .tag ⟨.start, name, _, _⟩ =>
        !((e.name.holdsMathText && name ≠ "mglyph" && name ≠ "malignmark") ||
          e.name.holdsSvgHtml || e.holdsHtml ||
          (e.name.space = .mathml && e.name.local = "annotation-xml" && name = "svg"))
      | _ => true

/-- The tag as its vocabulary spells it. -/
def respell (space : Space) (tag : Tag) : Tag :=
  let respellKeys (f : Text → Text) (attributes : List Markup.Attribute) :=
    attributes.map fun (key, value) => (f key, value)
  match space with
  | .html => tag
  | .svg =>
    { tag with
      name := svgTagName tag.name
      attributes := respellKeys (foreignAttributeName ∘ svgAttributeName) tag.attributes }
  | .mathml =>
    { tag with
      attributes := respellKeys (foreignAttributeName ∘ mathAttributeName) tag.attributes }

/-- Opens an element of a vocabulary, or adds it closed when its tag closes itself. -/
def insertForeign (b : Builder) (space : Space) (tag : Tag) : Builder :=
  if tag.selfClosing then (b.insertClosed ⟨space, tag.name⟩ tag.attributes).2
  else (b.insertOpened ⟨space, tag.name⟩ tag.attributes).2

/-- Opens an outermost element of SVG or MathML. Its name is taken as written. -/
def enterForeign (b : Builder) (space : Space) (tag : Tag) : Builder :=
  b.insertForeign space { respell space tag with name := tag.name }

/-- Closes the foreign elements that a tag of HTML breaks out of. -/
def leaveForeign (b : Builder) : Builder :=
  b.popTo fun name => name.space = .html || name.holdsMathText || name.holdsSvgHtml

/-- What an end tag in foreign content closes. -/
inductive ForeignEnd where
  /-- The elements left open after the element of that name. -/
  | closes (rest : List OpenElement)
  | ignored
  /-- An element of HTML is reached first, so the rules of HTML decide. -/
  | leftToHtml

/-- Looks for the element that an end tag closes; `isFirst` holds for the innermost element. -/
def findForeignEnd (name : Text) (isFirst : Bool) : List OpenElement → ForeignEnd
  | [] => .ignored
  | [_] => .ignored
  | e :: rest =>
    if !isFirst && e.name.space = .html then .leftToHtml
    else if Text.toAsciiLower e.name.local.toList = name then .closes rest
    else findForeignEnd name false rest

/-- The rules of foreign content. Tags of HTML are handed to `byMode`, the rules of the current
mode. -/
def takeForeign (byMode : Builder → Token → Step) (b : Builder) (token : Token) : Step :=
  match token with
  | .char c =>
    if c = '\x00' then .done (b.insertChar '\uFFFD')
    else .done ((if isSpace c then b else b.noFrameset).insertChar c)
  | .comment data => .done (b.insertComment data)
  | .tag tag =>
    match tag.kind with
    | .start =>
      if breaksOut tag then byMode b.leaveForeign token
      else
        match b.currentName? with
        | some name => .done (b.insertForeign name.space (respell name.space tag))
        | none => .done b
    | .stop =>
      if tag.name = "br" || tag.name = "p" then byMode b.leaveForeign token
      else
        match findForeignEnd (Text.toAsciiLower tag.name.toList) true b.opened with
        | .closes rest => .done { b with opened := rest }
        | .ignored => .done b
        | .leftToHtml => byMode b token
  | _ => .done b

end Builder

end SlimTemplate.Html
