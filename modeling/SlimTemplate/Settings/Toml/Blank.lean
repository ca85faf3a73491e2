import SlimTemplate.Text.Basic

/-!
# Gaps, line ends and comments

Between the parts of a settings file there may be spaces and tabs, between its lines also line
ends and comments, which go from a number sign to the end of the line.

## Main definitions

* `Settings.Toml.skipGap`: what follows spaces and tabs.
* `Settings.Toml.endLine?`: what follows the end of a line.
* `Settings.Toml.skipLines`: what follows blank lines and comments.
-/

namespace SlimTemplate.Settings.Toml

/-- A part of a text with a meaning, and the text after it. -/
abbrev Read (α : Type) := Option (α × Text)

/-- Whether a character is a space or a tab. -/
def isGap (c : Char) : Bool :=
  c == ' ' || c == '\t'

/-- Whether a character may not stand in a comment or a text. -/
def isControl (c : Char) : Bool :=
  (c.toNat < 0x20 && c ≠ '\t') || c.toNat == 0x7F

/-- A text without the spaces and tabs at its start. -/
def skipGap (text : Text) : Text :=
  text.dropWhile isGap

/-- The text after a line end. -/
def lineEnd? : Text → Option Text
  | '\n' :: rest => some rest
  | '\r' :: '\n' :: rest => some rest
  | _ => none

/-- A text without the spaces, tabs and line ends at its start. -/
def skipBlank : Text → Text
  | '\r' :: '\n' :: rest => skipBlank rest
  | c :: rest => if isGap c || c == '\n' then skipBlank rest else c :: rest
  | [] => []

/-- A text without the comment at its start, if there is one. -/
def skipComment : Text → Text
  | '#' :: rest => rest.dropWhile fun c => !isControl c
  | text => text

/-- The text after the end of the line, before which there may be a comment. -/
def endLine? (text : Text) : Option Text :=
  match skipComment (skipGap text) with
  | [] => some []
  | text => lineEnd? text

/-- A text without the spaces, tabs, line ends and comments at its start. -/
def skipLines : (fuel : Nat) → Text → Text
  | 0, text => text
  | fuel + 1, text =>
    match skipBlank text with
    | '#' :: rest => skipLines fuel (skipComment ('#' :: rest))
    | text => text

end SlimTemplate.Settings.Toml
