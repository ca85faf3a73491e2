import SlimTemplate.Text.Basic

/-!
# Indentation

Nesting is written with spaces, a fixed number for each level.

## Main definitions

* `Layout`: the number of spaces per level.
* `Layout.indent`: the spaces before a line.
-/

namespace SlimTemplate

/-- How levels of nesting are written and read. -/
structure Layout where
  /-- The number of spaces per level; zero counts as one. -/
  indentWidth : Nat
  deriving DecidableEq, Repr

namespace Layout

/-- The layout with two spaces per level. -/
def standard : Layout :=
  ⟨2⟩

/-- The number of spaces per level, never zero. -/
def width (layout : Layout) : Nat :=
  max 1 layout.indentWidth

/-- The spaces before a line of the given level. -/
def indent (layout : Layout) (level : Nat) : Text :=
  Text.spaces (layout.width * level)

theorem width_pos (layout : Layout) : 0 < layout.width := by
  unfold width
  omega

end Layout

end SlimTemplate
