import SlimTemplate.Text.Basic

/-!
# Names of elements

HTML parsing asks of an element's name which sets it belongs to: which elements bound a scope,
which are closed silently, which are special. This file holds those sets, and the names that SVG
and MathML spell in their own way.

## Main definitions

* `Html.Space`, `Html.Name`: a name in one of the three vocabularies.
* `Html.isSpecial`, `Html.isHeading`, `Html.isFormatting`, `Html.endsImplicitly`: sets of names.
* `Html.Name.boundsDefault`, `Html.Name.boundsListItem`, `Html.Name.boundsButton`,
  `Html.Name.boundsTable`, `Html.Name.boundsSelect`: the bounds of the scopes.
* `Html.svgTagName`, `Html.svgAttributeName`, `Html.foreignAttributeName`: spellings in foreign
  content.
-/

namespace SlimTemplate.Html

/-- The characters that HTML counts as white space. -/
def isSpace (c : Char) : Bool :=
  c == ' ' || c == '\t' || c == '\n' || c == '\x0c' || c == '\r'

/-- The vocabularies that an HTML document may mix. -/
inductive Space where
  | html
  | svg
  | mathml
  deriving DecidableEq, Repr

/-- A name in its vocabulary. -/
structure Name where
  space : Space
  «local» : String
  deriving DecidableEq, Repr

/-- Whether the name is that name of HTML. -/
def Name.isHtml (n : Name) (name : String) : Bool :=
  n.space == .html && n.local == name

/-- Whether the name is a name of HTML in the given set. -/
def Name.isHtmlIn (n : Name) (set : String → Bool) : Bool :=
  n.space == .html && set n.local

/-- The headings. -/
def isHeading : String → Bool
  | "h1" | "h2" | "h3" | "h4" | "h5" | "h6" => true
  | _ => false

/-- The elements that format text and are opened again after misnesting. -/
def isFormatting : String → Bool
  | "a" | "b" | "big" | "code" | "em" | "font" | "i" | "nobr" | "s" | "small" | "strike"
  | "strong" | "tt" | "u" => true
  | _ => false

/-- The elements whose structure parsing respects when it closes others. -/
def isSpecial : String → Bool
  | "address" | "applet" | "area" | "article" | "aside" | "base" | "basefont" | "bgsound"
  | "blockquote" | "body" | "br" | "button" | "caption" | "center" | "col" | "colgroup" | "dd"
  | "details" | "dir" | "div" | "dl" | "dt" | "embed" | "fieldset" | "figcaption" | "figure"
  | "footer" | "form" | "frame" | "frameset" | "h1" | "h2" | "h3" | "h4" | "h5" | "h6" | "head"
  | "header" | "hgroup" | "hr" | "html" | "iframe" | "img" | "input" | "isindex" | "li" | "link"
  | "listing" | "main" | "marquee" | "menu" | "meta" | "nav" | "noembed" | "noframes"
  | "noscript" | "object" | "ol" | "p" | "param" | "plaintext" | "pre" | "script" | "section"
  | "select" | "source" | "style" | "summary" | "table" | "tbody" | "td" | "template"
  | "textarea" | "tfoot" | "th" | "thead" | "title" | "tr" | "track" | "ul" | "wbr" | "xmp" =>
    true
  | _ => false

/-- The elements that a new list item does not reach beyond. -/
def bindsListItem (name : String) : Bool :=
  isSpecial name && name != "address" && name != "div" && name != "p"

/-- The elements that are closed silently where another is closed. -/
def endsImplicitly : String → Bool
  | "dd" | "dt" | "li" | "option" | "optgroup" | "p" | "rb" | "rp" | "rt" | "rtc" => true
  | _ => false

/-- The elements that are closed silently where a template is closed. -/
def endsWithTemplate (name : String) : Bool :=
  endsImplicitly name ||
    match name with
    | "caption" | "colgroup" | "tbody" | "td" | "tfoot" | "th" | "thead" | "tr" => true
    | _ => false

/-- The elements of a table from which misplaced content is moved before the table. -/
def isTablePart : String → Bool
  | "table" | "tbody" | "tfoot" | "thead" | "tr" => true
  | _ => false

/-- The cells of a table. -/
def isCell : String → Bool
  | "td" | "th" => true
  | _ => false

namespace Name

/-- The elements of MathML that hold text of HTML. -/
def holdsMathText (n : Name) : Bool :=
  n.space == .mathml &&
    match n.local with
    | "mi" | "mo" | "mn" | "ms" | "mtext" => true
    | _ => false

/-- The elements of SVG that hold HTML. -/
def holdsSvgHtml (n : Name) : Bool :=
  n.space == .svg &&
    match n.local with
    | "foreignObject" | "desc" | "title" => true
    | _ => false

/-- The bounds of the default scope. -/
def boundsDefault (n : Name) : Bool :=
  (n.isHtmlIn fun
    | "applet" | "caption" | "html" | "table" | "td" | "th" | "marquee" | "object"
    | "template" => true
    | _ => false) ||
    n.holdsMathText || n.holdsSvgHtml

/-- The bounds of the scope in which list items are closed. -/
def boundsListItem (n : Name) : Bool :=
  n.boundsDefault || n.isHtml "ol" || n.isHtml "ul"

/-- The bounds of the scope in which paragraphs are closed. -/
def boundsButton (n : Name) : Bool :=
  n.boundsDefault || n.isHtml "button"

/-- The bounds of the scope of a table. -/
def boundsTable (n : Name) : Bool :=
  n.isHtml "html" || n.isHtml "table" || n.isHtml "template"

/-- The bounds of the scope of a select: everything but options and their groups. -/
def boundsSelect (n : Name) : Bool :=
  !(n.isHtml "optgroup" || n.isHtml "option")

/-- The elements in which sections of a table stand. -/
def holdsRows (n : Name) : Bool :=
  n.isHtml "tbody" || n.isHtml "tfoot" || n.isHtml "thead" || n.isHtml "template" ||
    n.isHtml "html"

/-- The elements in which cells of a table stand. -/
def holdsCells (n : Name) : Bool :=
  n.isHtml "tr" || n.isHtml "template" || n.isHtml "html"

end Name

/-- The tag names of SVG that have capitals, under their spelling in small letters. -/
def svgTagNames : List (String × String) :=
  ["altGlyph", "altGlyphDef", "altGlyphItem", "animateColor", "animateMotion",
   "animateTransform", "clipPath", "feBlend", "feColorMatrix", "feComponentTransfer",
   "feComposite", "feConvolveMatrix", "feDiffuseLighting", "feDisplacementMap",
   "feDistantLight", "feDropShadow", "feFlood", "feFuncA", "feFuncB", "feFuncG", "feFuncR",
   "feGaussianBlur", "feImage", "feMerge", "feMergeNode", "feMorphology", "feOffset",
   "fePointLight", "feSpecularLighting", "feSpotLight", "feTile", "feTurbulence",
   "foreignObject", "glyphRef", "linearGradient", "radialGradient", "textPath"].map
    fun name => (name.toLower, name)

/-- The attribute names of SVG that have capitals, under their spelling in small letters. -/
def svgAttributeNames : List (Text × Text) :=
  ["attributeName", "attributeType", "baseFrequency", "baseProfile", "calcMode",
   "clipPathUnits", "diffuseConstant", "edgeMode", "filterUnits", "glyphRef",
   "gradientTransform", "gradientUnits", "kernelMatrix", "kernelUnitLength", "keyPoints",
   "keySplines", "keyTimes", "lengthAdjust", "limitingConeAngle", "markerHeight",
   "markerUnits", "markerWidth", "maskContentUnits", "maskUnits", "numOctaves", "pathLength",
   "patternContentUnits", "patternTransform", "patternUnits", "pointsAtX", "pointsAtY",
   "pointsAtZ", "preserveAlpha", "preserveAspectRatio", "primitiveUnits", "refX", "refY",
   "repeatCount", "repeatDur", "requiredExtensions", "requiredFeatures", "specularConstant",
   "specularExponent", "spreadMethod", "startOffset", "stdDeviation", "stitchTiles",
   "surfaceScale", "systemLanguage", "tableValues", "targetX", "targetY", "textLength",
   "viewBox", "viewTarget", "xChannelSelector", "yChannelSelector", "zoomAndPan"].map
    fun name => (Text.toAsciiLower name.toList, name.toList)

/-- The spelling of a tag name in SVG. -/
def svgTagName (name : String) : String :=
  (svgTagNames.lookup name).getD name

/-- The spelling of an attribute name in SVG. -/
def svgAttributeName (name : Text) : Text :=
  (svgAttributeNames.lookup name).getD name

/-- The spelling of an attribute name in MathML. -/
def mathAttributeName (name : Text) : Text :=
  if name = "definitionurl".toList then "definitionURL".toList else name

/-- The key of an attribute in foreign content. The attribute that declares a vocabulary takes
the empty vocabulary prefix. -/
def foreignAttributeName (name : Text) : Text :=
  if name = "xmlns".toList then ":xmlns".toList else name

end SlimTemplate.Html
