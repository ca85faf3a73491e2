import SlimTemplate.Line.Basic
import SlimTemplate.Selector.Compound
import SlimTemplate.Validation.Finding

/-!
# Checks of single lines

Each check looks at one line. Three lists give their order: defects of syntax, matters of style,
and conventions of the framework that the templates are for.

## Main definitions

* `ValidationOptions`: what is checked.
* `Check.errorChecks`, `Check.warningChecks`, `Check.frameworkChecks`: the checks in order.
* `Check.findings`: what checks find in a line.
-/

namespace SlimTemplate

/-- What is checked. -/
structure ValidationOptions where
  checkConventions : Bool
  /-- Whether tabs are errors and styles written in lines are reported. -/
  strict : Bool
  /-- The number of characters that a line may have. -/
  maxLineLength : Nat
  layout : Layout
  deriving DecidableEq, Repr

/-- The options that hold unless others are given. -/
def ValidationOptions.standard : ValidationOptions :=
  ⟨false, false, 120, .standard⟩

namespace Check

/-- A check of a line. -/
abbrev LineCheck := ValidationOptions → SlimLine → Option Issue

/-- The issue, if the condition holds. -/
def when (condition : Bool) (issue : Issue) : Option Issue :=
  if condition then some issue else none

/-- The text after the first non-blank run of a line that begins as an element: the blanks, and
what follows them. -/
def afterHead? : Text → Option (Text × Text)
  | [] => none
  | c :: rest =>
    if isLatinLetter c || c = '#' || c = '.' then
      let rest := rest.dropWhile fun c => !Text.isBlank c
      some (rest.takeWhile Text.isBlank, rest.dropWhile Text.isBlank)
    else none

/-- A line that a slash makes a comment, unless it is written as one. -/
def leadingSlash : LineCheck := fun _ line =>
  match line.content with
  | '/' :: rest =>
    let isComment :=
      match rest with
      | [] => false
      | c :: _ => c = '!' || c = '|' || Text.isBlank c
    when (!isComment) (.slashText line.content)
  | _ => none

/-- A single slash at the start of the text behind a head, with text after it. -/
def slashBehindHead : LineCheck := fun _ line =>
  match afterHead? line.content with
  | some (_ :: _, '/' :: c :: _) => when (c ≠ '/') .slashBehindHead
  | _ => none

/-- A bracket of one kind without any of the other. -/
def brackets : LineCheck := fun _ line =>
  match line.content.contains '[', line.content.contains ']' with
  | true, false => some .unclosedBracket
  | false, true => some .strayBracket
  | _, _ => none

/-- A sign for code and nothing else. -/
def missingCode : LineCheck := fun _ line =>
  match line.content with
  | c :: rest => when ((c = '=' || c = '-') && rest.all Text.isBlank) .missingCode
  | [] => none

/-- A tab, where tabs are errors. -/
def strictTab : LineCheck := fun options line =>
  when (options.strict && line.containsTab) .tab

/-- Whether a blank, a slash and a character of a word follow each other in a text. -/
def hasSlashWord : Text → Bool
  | [] => false
  | c :: text =>
    (Text.isBlank c &&
      match text with
      | '/' :: d :: _ => Text.isWordChar d
      | _ => false) ||
      hasSlashWord text

/-- A slash at the start of a word in a line that begins with a word. -/
def slashBeforeWord : LineCheck := fun _ line =>
  match line.content with
  | c :: rest => when (Text.isWordChar c && hasSlashWord rest) .slashBeforeWord
  | [] => none

/-- A line that is longer than the limit. -/
def overlong : LineCheck := fun options line =>
  when (options.maxLineLength < line.raw.length) (.tooLong options.maxLineLength)

/-- Text behind a single quote. -/
def quoteAtStart : LineCheck := fun _ line =>
  when (line.content.head? = some '\'') .quoteAtStart

/-- The number of characters from which on text behind a head counts as long. -/
def longFrom : Nat :=
  51

/-- Much text behind a head. Of several blanks before the text, those after the first two count as
text; text that begins as code counts only so. -/
def longText : LineCheck := fun _ line =>
  match afterHead? line.content with
  | none => none
  | some ([], _) => none
  | some (_ :: more, text) =>
    -- `more` are the blanks after the first, the first of which may count as start of the text.
    let startsCode := text.head? = some '=' || text.head? = some '-' || text.head? = some '|'
    when ((!more.isEmpty && longFrom ≤ more.length + text.length) ||
      (!startsCode && longFrom ≤ text.length)) .longText

/-- A tab, where tabs are no errors. -/
def lenientTab : LineCheck := fun options line =>
  when (!options.strict && line.containsTab) .tab

/-- A style written in the line. -/
def styleAttribute : LineCheck := fun options line =>
  when (options.strict && Text.hasInfix "style=".toList line.content) .styleAttribute

/-- What follows the first occurrence of a word. -/
def after? (word : String) (text : Text) : Option Text :=
  (Text.cutAt? word.toList text).map (·.2)

/-- What follows the first place where a word and a quote stand. -/
def afterQuote? (word : String) : Text → Option Text
  | [] => none
  | c :: text =>
    match Text.dropPrefix? word.toList (c :: text) with
    | some ('"' :: rest) => some rest
    | some ('\'' :: rest) => some rest
    | _ => afterQuote? word text

/-- Whether a text has one of the words anywhere. -/
def hasAny (words : List String) (text : Text) : Bool :=
  words.any fun word => Text.hasInfix word.toList text

/-- A stylesheet linked by its address. -/
def linkedStylesheet : LineCheck := fun _ line =>
  match (after? "link" line.content).bind (afterQuote? "href=") with
  | some rest => when (hasAny [".css", ".scss"] rest) .linkedStylesheet
  | none => none

/-- A script included by its address. -/
def linkedScript : LineCheck := fun _ line =>
  match (after? "script" line.content).bind (afterQuote? "src=") with
  | some rest => when (hasAny [".js"] rest) .linkedScript
  | none => none

/-- Whether the value of a quoted attribute satisfies `p` somewhere in a text, where a value is all
that follows the opening quote. -/
def anyQuoted (word : String) (p : Text → Bool) : Text → Bool
  | [] => false
  | c :: text =>
    (match Text.dropPrefix? word.toList (c :: text) with
      | some ('"' :: rest) => p rest
      | some ('\'' :: rest) => p rest
      | _ => false) ||
      anyQuoted word p text

/-- Whether an address starts neither with its scheme nor with two slashes. -/
def isLocal (address : Text) : Bool :=
  !(Text.hasPrefix "http".toList address) && !(Text.hasPrefix "//".toList address)

/-- An image with a local address. -/
def linkedImage : LineCheck := fun _ line =>
  match after? "img" line.content with
  | some rest => when (anyQuoted "src=" isLocal rest) .linkedImage
  | none => none

/-- A form that no helper writes. -/
def plainForm : LineCheck := fun _ line =>
  when (Text.hasPrefix "form".toList line.content &&
    !hasAny ["form_for", "form_with"] line.content) .plainForm

/-- Whether a text begins with one of the words. -/
def startsWithAny (words : List String) (text : Text) : Bool :=
  words.any fun word => Text.hasPrefix word.toList text

/-- A text with its letters made small, the long s among them. -/
def foldCase (text : Text) : Text :=
  (Text.toAsciiLower text).map fun c => if c = 'ſ' then 's' else c

/-- A form that changes data. -/
def changingForm : LineCheck := fun _ line =>
  match Text.dropPrefix? "form[".toList (foldCase line.content) with
  | some rest =>
    when (anyQuoted "method=" (startsWithAny ["post", "patch", "put", "delete"]) rest)
      .changingForm
  | none => none

/-- A resource with its address written out. -/
def linkedResource : LineCheck := fun _ line =>
  when (anyQuoted "href=" (startsWithAny ["/users", "/posts", "/articles", "/products"])
    line.content) .linkedResource

/-- The checks for errors, in order. -/
def errorChecks : List LineCheck :=
  [leadingSlash, slashBehindHead, brackets, missingCode, strictTab]

/-- The checks for warnings, in order. -/
def warningChecks : List LineCheck :=
  [slashBeforeWord, overlong, quoteAtStart, longText, lenientTab, styleAttribute]

/-- The checks of conventions, in order. -/
def frameworkChecks : List LineCheck :=
  [linkedStylesheet, linkedScript, linkedImage, plainForm, changingForm, linkedResource]

/-- What checks find in a line, in the order of the checks. -/
def findings (checks : List LineCheck) (options : ValidationOptions) (line : SlimLine) :
    List Finding :=
  (checks.filterMap fun check => check options line).map (.inLine line.number)

end Check

end SlimTemplate
