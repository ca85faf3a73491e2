import SlimTemplate.Text.Utf8

/-!
# Findings

What validation can find in a line, and how it is worded.

## Main definitions

* `Issue`: what can be wrong with a line.
* `Finding`: an issue and the line that has it, or the reason why a source could not be read.
* `Report`: the errors and warnings for a source.
-/

namespace SlimTemplate

/-- What can be wrong with a line. -/
inductive Issue where
  /-- The line is more than one level deeper than allowed. -/
  | indentJump (expected got : Nat)
  /-- Text that starts with a slash, which makes it a comment. -/
  | slashText (line : Text)
  /-- Text behind a head that starts with a slash. -/
  | slashBehindHead
  /-- An opening bracket without a closing one. -/
  | unclosedBracket
  /-- A closing bracket without an opening one. -/
  | strayBracket
  /-- A sign for code without code. -/
  | missingCode
  | tab
  /-- A slash at the start of a word in text. -/
  | slashBeforeWord
  /-- A line that is longer than the limit. -/
  | tooLong (limit : Nat)
  | quoteAtStart
  | longText
  /-- A style written in the line. -/
  | styleAttribute
  | linkedStylesheet
  | linkedScript
  | linkedImage
  | plainForm
  | changingForm
  | linkedResource
  deriving DecidableEq, Repr

namespace Issue

/-- The remark that a slash begins a comment. -/
def slashRemark : Text :=
  "Forward slash will be interpreted as comment.".toList

/-- The wording of an issue. -/
def message : Issue → Text
  | indentJump expected got =>
    "Invalid indentation jump (expected ".toList ++ Text.ofNat expected ++ ", got ".toList ++
      Text.ofNat got ++ ")".toList
  | slashText line => slashRemark ++ " Use pipe notation for text: | ".toList ++ line
  | slashBehindHead => slashRemark ++ " Use pipe notation for text".toList
  | unclosedBracket => "Unclosed attribute bracket".toList
  | strayBracket => "Unexpected closing bracket".toList
  | missingCode => "Ruby code marker without code".toList
  | tab => "Contains tabs (use spaces for indentation)".toList
  | slashBeforeWord => "Text containing '/' might need pipe notation".toList
  | tooLong limit => "Line exceeds ".toList ++ Text.ofNat limit ++ " characters".toList
  | quoteAtStart => "Single quote for text interpolation is deprecated".toList
  | longText =>
    "Long inline text might be better as multiline with pipe notation".toList
  | styleAttribute => "Inline styles detected (consider using classes)".toList
  | linkedStylesheet => "Consider using stylesheet_link_tag for CSS files".toList
  | linkedScript => "Consider using javascript_include_tag for JS files".toList
  | linkedImage => "Consider using image_tag helper for images".toList
  | plainForm => "Consider using Rails form helpers (form_for, form_with)".toList
  | changingForm => "Ensure CSRF token is included in form".toList
  | linkedResource => "Consider using Rails path helpers instead of hardcoded URLs".toList

end Issue

/-- What validation has found. -/
inductive Finding where
  /-- An issue in the line of that number. -/
  | inLine (number : Nat) (issue : Issue)
  /-- The source could not be read. -/
  | unreadable (fault : Text.Utf8Error)
  deriving DecidableEq, Repr

/-- The wording of a finding. -/
def Finding.message : Finding → Text
  | inLine number issue =>
    "Line ".toList ++ Text.ofNat number ++ ": ".toList ++ issue.message
  | unreadable fault => "Failed to read or validate file: ".toList ++ fault.message

/-- The errors and warnings for a source. -/
structure Report where
  errors : List Finding
  warnings : List Finding
  deriving DecidableEq, Repr

/-- Whether there are no errors. -/
def Report.isValid (report : Report) : Bool :=
  report.errors.isEmpty

end SlimTemplate
