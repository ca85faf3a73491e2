import SlimTemplate.Line.Tree
import SlimTemplate.Validation.Check

/-!
# Validation

A source is read into lines, and every line is checked on its own. One check looks at more
than one line: a line may be at most one level deeper than the innermost level that is open.

## Main definitions

* `Validation.jump?`: a line that is too deep.
* `Validation.errors`: the errors of lines.
* `validate`, `validateUtf8`: the report for a source.
-/

namespace SlimTemplate

namespace Validation

/-- The deepest level that a line may have under the open levels, the innermost first. -/
def allowedLevel : List Nat → Nat
  | [] => 0
  | level :: _ => level + 1

/-- The open levels after a line of the given level. -/
def openLevels (level : Nat) (opened : List Nat) : List Nat :=
  match opened.dropWhile (level < ·) with
  | [] => [level]
  | top :: rest => if top < level then level :: top :: rest else top :: rest

/-- The issue of a line that is too deep under the open levels. -/
def jump? (opened : List Nat) (line : SlimLine) : Option Issue :=
  if allowedLevel opened < line.level then
    some (.indentJump (allowedLevel opened) line.level)
  else none

/-- The errors of lines under the open levels. -/
def errorsFrom (options : ValidationOptions) (opened : List Nat) : List SlimLine → List Finding
  | [] => []
  | line :: lines =>
    (jump? opened line).toList.map (.inLine line.number) ++
      Check.findings Check.errorChecks options line ++
      errorsFrom options (openLevels line.level opened) lines

/-- The errors of lines. -/
def errors (options : ValidationOptions) (lines : List SlimLine) : List Finding :=
  errorsFrom options [] lines

/-- The warnings of lines: those of style for all lines, then those of conventions. -/
def warnings (options : ValidationOptions) (lines : List SlimLine) : List Finding :=
  lines.flatMap (Check.findings Check.warningChecks options) ++
    if options.checkConventions then
      lines.flatMap (Check.findings Check.frameworkChecks options)
    else []

end Validation

/-- The report for a source. -/
def validate (options : ValidationOptions) (source : Text) : Report :=
  let lines := SlimLine.ofSource options.layout source
  ⟨Validation.errors options lines, Validation.warnings options lines⟩

/-- The report for the bytes of a source. Bytes that are not UTF-8 make the source invalid. -/
def validateUtf8 (options : ValidationOptions) (source : List UInt8) : Report :=
  match Text.decodeUtf8 source with
  | .ok source => validate options source
  | .error fault => ⟨[.unreadable fault], []⟩

end SlimTemplate
