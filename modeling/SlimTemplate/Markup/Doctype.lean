import SlimTemplate.Text.Blank

/-!
# Doctype declarations

A declaration `<!DOCTYPE body>` is taken out of the markup before anything else is read, and its
body is classified by the words in it. Slim has one keyword line for each class.

A declaration begins with `<!DOCTYPE` in any case and at least one blank. Its body is never empty,
so a `>` directly after the blanks belongs to the body when another `>` follows; when none
follows, the last of two or more blanks is the body.

## Main definitions

* `Doctype.ofBody`: the class of a declaration's body.
* `Doctype.line`: the Slim line of a class.
* `Doctype.strip`: the first declaration, and the markup without it.
-/

namespace SlimTemplate

/-- The classes of document type that Slim can write. -/
inductive Doctype where
  | strict
  | transitional
  | frameset
  /-- The plain document type of HTML. -/
  | html
  | generic
  deriving DecidableEq, Repr

namespace Doctype

/-- The name of a class. -/
def name : Doctype → Text
  | strict => "strict".toList
  | transitional => "transitional".toList
  | frameset => "frameset".toList
  | html => "html".toList
  | generic => "generic".toList

/-- The Slim line that declares a document type. -/
def line : Doctype → Text
  | strict => "doctype strict".toList
  | transitional => "doctype transitional".toList
  | frameset => "doctype frameset".toList
  | html => "doctype html".toList
  | generic => "doctype".toList

/-- The class of a declaration's body, looked for in the order of the classes. -/
def ofBody (body : Text) : Doctype :=
  let body := Text.toAsciiLower (Text.trim body)
  if Text.hasInfix "strict".toList body then strict
  else if Text.hasInfix "transitional".toList body then transitional
  else if Text.hasInfix "frameset".toList body then frameset
  else if Text.hasSuffix "html".toList body then html
  else generic

/-- The characters before the first `>` and the text after it. -/
def closeAt? : Text → Option (Text × Text)
  | [] => none
  | '>' :: after => some ([], after)
  | c :: text => (closeAt? text).map fun (before, after) => (c :: before, after)

/-- The body that follows the blanks of a declaration, and what follows the declaration, where
`blanks` are the blanks read, the last one first. -/
def bodyAfter? (blanks : Text) : Text → Option (Text × Text)
  | [] => none
  | c :: text =>
    match closeAt? text with
    | some (body, after) => some (c :: body, after)
    | none =>
      -- Only the `>` after the blanks is left to close, so the body is the last blank.
      if c = '>' then
        match blanks with
        | last :: _ :: _ => some ([last], text)
        | _ => none
      else none

/-- The keyword that begins a declaration, in small letters. -/
def keyword : Text :=
  "<!doctype".toList

/-- Reads a declaration at the start of a text: its body and what follows it. -/
def read? (text : Text) : Option (Text × Text) :=
  if Text.toAsciiLower (text.take keyword.length) = keyword then
    let text := text.drop keyword.length
    let blanks := text.takeWhile Text.isBlank
    if blanks.isEmpty then none else bodyAfter? blanks.reverse (text.dropWhile Text.isBlank)
  else none

/-- The first declaration of a text, classified, and the text without it. -/
def strip : Text → Option Doctype × Text
  | [] => (none, [])
  | c :: text =>
    match read? (c :: text) with
    | some (body, after) => (some (ofBody body), after)
    | none => let (found, rest) := strip text; (found, c :: rest)

end Doctype

end SlimTemplate
