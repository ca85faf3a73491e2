import SlimTemplate.Line.Basic

/-!
# The tree of lines

Read from top to bottom, lines form a tree: the parent of a line is the nearest one before it
whose level is smaller. Parents are found in one pass with a stack of the lines that are still
open.

## Main definitions

* `LineTree`: lines seen as a tree.
* `LineTree.parents`: the parent of every line.
* `LineTree.blockEnd`: where the descendants of a line end.
-/

namespace SlimTemplate

/-- Lines seen as a tree. -/
structure LineTree where
  /-- The lines from top to bottom. -/
  lines : List SlimLine
  deriving DecidableEq, Repr

namespace LineTree

/-- The tree of a source. -/
def ofSource (layout : Layout) (source : Text) : LineTree :=
  ⟨SlimLine.ofSource layout source⟩

/-- The parents of lines that are numbered from `index` on, under the open lines, which are
given by number and level with the innermost first. -/
def parentsFrom (index : Nat) (opened : List (Nat × Nat)) : List SlimLine → List (Option Nat)
  | [] => []
  | line :: lines =>
    let opened := opened.dropWhile fun (_, level) => line.level ≤ level
    (opened.head?.map (·.1)) :: parentsFrom (index + 1) ((index, line.level) :: opened) lines

/-- The parent of every line. -/
def parents (tree : LineTree) : List (Option Nat) :=
  parentsFrom 0 [] tree.lines

/-- The parent of a line. -/
def parent? (tree : LineTree) (index : Nat) : Option Nat :=
  tree.parents[index]?.join

/-- The line that is the parent of another. -/
def enclosing? (tree : LineTree) (index : Nat) : Option SlimLine :=
  (tree.parent? index).bind (tree.lines[·]?)

/-- The number of lines after `root` that lie in its subtree. -/
def descendantCount (root : SlimLine) (after : List SlimLine) : Nat :=
  (after.takeWhile fun line => root.level < line.level).length

/-- The index after the last descendant of a line. Beyond the last line it is the index
itself. -/
def blockEnd (tree : LineTree) (index : Nat) : Nat :=
  match tree.lines.drop index with
  | [] => index
  | root :: after => index + 1 + descendantCount root after

end LineTree

end SlimTemplate
