import SlimTemplate.Line.Kind
import SlimTemplate.Line.Layout
import SlimTemplate.Text.Lines

/-!
# Lines of Slim

A line that is not blank has a kind and a level, the number of the spaces before it divided by the
width of a level. Lines are written back with one indentation per level and the shallowest of them
at the margin.

## Main definitions

* `SlimLine`: a line with its kind and level.
* `SlimLine.read?`: a line as it stands in a source.
* `SlimLine.ofSource`: the lines of a source.
* `SlimLine.render`: lines as text.
-/

namespace SlimTemplate

/-- A line that is not blank. -/
structure SlimLine where
  /-- The line as it stands in the source. -/
  raw : Text
  content : Text
  level : Nat
  /-- The number of the line in the source, counted from one. -/
  number : Nat
  kind : LineKind
  deriving DecidableEq, Repr

/-- The number of spaces at the start of a text. Tabs do not count. -/
def spacesBefore (text : Text) : Nat :=
  (text.takeWhile (· = ' ')).length

namespace SlimLine

/-- The line of that number which a text spells, unless the text is blank. -/
def read? (layout : Layout) (number : Nat) (text : Text) : Option SlimLine :=
  let content := Text.trim text
  if content.isEmpty then none
  else
    some
      { raw := text
        content
        level := spacesBefore text / layout.width
        number
        kind := LineKind.of content }

/-- The lines that texts spell which are numbered from `number` on. -/
def readAll (layout : Layout) (number : Nat) : List Text → List SlimLine
  | [] => []
  | text :: texts =>
    match read? layout number text with
    | some line => line :: readAll layout (number + 1) texts
    | none => readAll layout (number + 1) texts

/-- The lines of a source. Blank lines are left out, but they count. -/
def ofSource (layout : Layout) (source : Text) : List SlimLine :=
  readAll layout 1 (Text.lines source)

/-- The spaces at the start of a line as it stands in the source. -/
def margin (line : SlimLine) : Text :=
  line.raw.takeWhile (· = ' ')

/-- Whether a line has a tab anywhere. -/
def containsTab (line : SlimLine) : Bool :=
  line.raw.contains '\t'

/-- The smallest level of lines. -/
def leastLevel? (lines : List SlimLine) : Option Nat :=
  (lines.map (·.level)).min?

/-- A line as written, with levels counted from `base`. -/
def write (layout : Layout) (base : Nat) (line : SlimLine) : Text :=
  layout.indent (line.level - base) ++ line.content

/-- Lines as text, the shallowest at the margin, without a line feed at the end. -/
def render (layout : Layout) (lines : List SlimLine) : Text :=
  Text.unlines (lines.map (write layout ((leastLevel? lines).getD 0)))

end SlimLine

end SlimTemplate
