import SlimTemplate.Selector.Basic
import SlimTemplate.Text.Lowercase

/-!
# Choosing lines

Three ways to choose lines of a tree: those above a depth, the blocks that a selector matches,
and the blocks that names keep or remove.

## Main definitions

* `Extraction.outline`: the lines above a depth.
* `Extraction.select`: the blocks that a selector matches.
* `Extraction.keepNamed`, `Extraction.removeNamed`: blocks by name.
* `Extraction.isNamed`: whether a line has a name.
-/

namespace SlimTemplate.Extraction

/-- The lines above a depth. -/
def outline (lines : List SlimLine) (depth : Nat) : List SlimLine :=
  lines.filter fun line => line.level < depth

/-- The blocks whose roots a selector matches, among the lines from `index` on; the first
`taken` of these belong to a block already taken. -/
def selectFrom (selector : Selector) (tree : LineTree) (index taken : Nat) :
    List SlimLine → List SlimLine
  | [] => []
  | line :: lines =>
    match taken with
    | more + 1 => line :: selectFrom selector tree (index + 1) more lines
    | 0 =>
      if selector.selects tree index then
        line ::
          selectFrom selector tree (index + 1) (LineTree.descendantCount line lines) lines
      else selectFrom selector tree (index + 1) 0 lines

/-- The blocks whose roots a selector matches. -/
def select (selector : Selector) (tree : LineTree) : List SlimLine :=
  selectFrom selector tree 0 0 tree.lines

/-- The names that stand for any line beginning with them. -/
def lineNames : List Text :=
  ["script", "style", "link", "meta"].map String.toList

/-- Whether a head has a name as its element, its identifier or a class. -/
def headIsNamed (head : Head) (name : Text) : Bool :=
  Text.eqIgnoreAsciiCase head.tagName name || head.id? = some name || head.hasClass name

/-- Whether a line has a name. -/
def isNamed (line : SlimLine) (name : Text) : Bool :=
  if name = "doctype".toList then line.kind = .doctype
  else if lineNames.contains name then Text.hasPrefix name line.content
  else
    line.kind.isElement &&
      match Head.scan? line.content with
      | some head => headIsNamed head name
      | none => false

/-- Whether a line has one of the names. -/
def isAnyNamed (names : List Text) (line : SlimLine) : Bool :=
  names.any (isNamed line)

/-- The blocks whose roots have one of the names. `kept` is the level of the block being kept. -/
def keepFrom (names : List Text) (kept : Option Nat) : List SlimLine → List SlimLine
  | [] => []
  | line :: lines =>
    match kept.filter (· < line.level) with
    | some level => line :: keepFrom names (some level) lines
    | none =>
      if isAnyNamed names line then line :: keepFrom names (some line.level) lines
      else keepFrom names none lines

/-- The blocks whose roots have one of the names. -/
def keepNamed (names : List Text) (lines : List SlimLine) : List SlimLine :=
  keepFrom names none lines

/-- The lines outside of the blocks whose roots have one of the names. `skipped` is the level of
the block being left out. -/
def removeFrom (names : List Text) (skipped : Option Nat) : List SlimLine → List SlimLine
  | [] => []
  | line :: lines =>
    match skipped.filter (· < line.level) with
    | some level => removeFrom names (some level) lines
    | none =>
      if isAnyNamed names line then removeFrom names (some line.level) lines
      else line :: removeFrom names none lines

/-- The lines outside of the blocks whose roots have one of the names. -/
def removeNamed (names : List Text) (lines : List SlimLine) : List SlimLine :=
  removeFrom names none lines

/-- The names in a list whose items may hold several, separated by commas, in small letters. -/
def splitNames (names : List Text) : List Text :=
  ((names.flatMap (Text.splitOn ',')).map fun name => Text.toLower (Text.trim name)).filter
    fun name => !name.isEmpty

end SlimTemplate.Extraction
