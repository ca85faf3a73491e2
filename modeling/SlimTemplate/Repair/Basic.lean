import SlimTemplate.Line.Basic
import SlimTemplate.Line.Head
import SlimTemplate.Selector.Compound
import SlimTemplate.Text.Utf8

/-!
# Repair

Two repairs of text that Slim would read as something else. Text that starts with a slash goes to
a line of its own behind a bar. An element with text, and deeper lines of text below it, becomes
the bare element with one line behind a bar for each. All other lines stay as they are.

## Main definitions

* `RepairOptions`: which repairs are made.
* `Repair.pipeSlashes`, `Repair.pipeMultiline`: the two repairs.
* `repair`, `repairUtf8`: the repair of a source.
-/

namespace SlimTemplate

/-- Which repairs are made. -/
structure RepairOptions where
  /-- Whether text that starts with a slash is repaired. -/
  slashes : Bool
  /-- Whether text over several lines is repaired. -/
  multiline : Bool
  /-- Whether the result is only to be looked at. -/
  previewOnly : Bool
  /-- How lines are read and written. -/
  layout : Layout
  deriving DecidableEq, Repr

/-- The options that hold unless others are given. -/
def RepairOptions.standard : RepairOptions :=
  ⟨true, true, false, .standard⟩

namespace Repair

/-- A repair and the number of the line in the source that it starts from. -/
inductive Fix where
  /-- Text that starts with a slash. -/
  | slash (number : Nat)
  | multiline (number : Nat)
  deriving DecidableEq, Repr

/-- The wording of a repair. -/
def Fix.message : Fix → Text
  | slash number => "slash text at line ".toList ++ Text.ofNat number
  | multiline number => "multiline text at line ".toList ++ Text.ofNat number

/-- A line and the number of the line in the source that it comes from. -/
structure NumberedLine where
  /-- The number of the line in the source. -/
  number : Nat
  text : Text
  deriving DecidableEq, Repr

/-- The spaces at the start of a line. -/
def NumberedLine.margin (line : NumberedLine) : Text :=
  line.text.takeWhile (· = ' ')

/-- A line trimmed. -/
def NumberedLine.content (line : NumberedLine) : Text :=
  Text.trim line.text

/-- Lines numbered from `number` on. -/
def numberFrom (number : Nat) : List Text → List NumberedLine
  | [] => []
  | line :: lines => ⟨number, line⟩ :: numberFrom (number + 1) lines

/-- The head of an element line and the text behind it. -/
def headAndText? (content : Text) : Option (Text × Text) :=
  if (LineKind.of content).isElement then
    (Head.scan? content).bind fun head => head.textBehind?.map fun text => (head.text, text)
  else none

/-- Whether a text starts with exactly one slash. -/
def startsWithOneSlash : Text → Bool
  | '/' :: '/' :: _ => false
  | '/' :: _ => true
  | _ => false

/-- The head of an element line and the text behind it, if that starts with one slash. -/
def slashBehindHead? (content : Text) : Option (Text × Text) :=
  (headAndText? content).filter fun (_, text) => startsWithOneSlash text

/-- Whether a line is text that starts with a slash. -/
def isSlashText (content : Text) : Bool :=
  content.head? = some '/' && !(LineKind.of content).isComment

/-- A line of text behind a bar. -/
def pipeLine (number : Nat) (indent text : Text) : NumberedLine :=
  ⟨number, indent ++ "| ".toList ++ text⟩

/-- The lines that repair text that starts with a slash, if the line is such. -/
def pipeSlash? (layout : Layout) (line : NumberedLine) : Option (List NumberedLine) :=
  match slashBehindHead? line.content with
  | some (head, text) =>
    some [⟨line.number, line.margin ++ head⟩,
      pipeLine line.number (line.margin ++ layout.indent 1) text]
  | none =>
    if isSlashText line.content then some [pipeLine line.number line.margin line.content]
    else none

/-- The lines with text that starts with a slash repaired, and the repairs. -/
def pipeSlashes (layout : Layout) : List NumberedLine → List NumberedLine × List Fix
  | [] => ([], [])
  | line :: lines =>
    let (rest, fixes) := pipeSlashes layout lines
    match pipeSlash? layout line with
    | some repaired => (repaired ++ rest, .slash line.number :: fixes)
    | none => (line :: rest, fixes)

/-- Whether a line begins with a sign of Slim. -/
def startsWithSign (content : Text) : Bool :=
  match content with
  | [] => false
  | c :: _ => ['=', '-', '|', '/', '!', '#', '.'].contains c

/-- Whether a line begins with letters and then `#`, `.` or a bracket. -/
def startsMarkedTag (content : Text) : Bool :=
  (content.head?.map isLatinLetter).getD false &&
    match content.dropWhile isLatinLetter with
    | [] => false
    | c :: _ => c = '#' || c = '.' || c = '['

/-- Whether a line is more than text, or blank. -/
def isMarkup (content : Text) : Bool :=
  content.isEmpty || startsWithSign content || startsMarkedTag content

/-- Whether a line is text that belongs to an element with the given number of spaces before
it. -/
def isTextBelow (depth : Nat) (line : NumberedLine) : Bool :=
  depth < line.margin.length && !isMarkup line.content

/-- The lines with text over several lines repaired, and the repairs. -/
def pipeMultiline (layout : Layout) (lines : List NumberedLine) : List NumberedLine × List Fix :=
  match lines with
  | [] => ([], [])
  | line :: lines =>
    match headAndText? line.content with
    | none =>
      let (rest, fixes) := pipeMultiline layout lines
      (line :: rest, fixes)
    | some (head, text) =>
      -- An element without text lines below it stays as it is.
      let below := lines.takeWhile (isTextBelow line.margin.length)
      if below.isEmpty then
        let (rest, fixes) := pipeMultiline layout lines
        (line :: rest, fixes)
      else
        let indent := line.margin ++ layout.indent 1
        let (rest, fixes) := pipeMultiline layout (lines.dropWhile (isTextBelow line.margin.length))
        (⟨line.number, line.margin ++ head⟩ :: pipeLine line.number indent text ::
            (below.map fun l => pipeLine l.number indent l.content) ++ rest,
          .multiline line.number :: fixes)
termination_by lines.length
decreasing_by
  · simp
  · simp
  · have := (List.dropWhile_sublist (l := lines) (isTextBelow line.margin.length)).length_le
    simp only [List.length_cons]
    omega

/-- A repaired source. -/
structure Result where
  content : Text
  fixes : List Fix
  /-- Whether the result is only to be looked at. -/
  isPreview : Bool
  deriving DecidableEq, Repr

/-- Whether anything was repaired. -/
def Result.isChanged (result : Result) : Bool :=
  !result.fixes.isEmpty

/-- Lines as a source. -/
def unlines (lines : List NumberedLine) : Text :=
  Text.unlines (lines.map (·.text)) ++ ['\n']

end Repair

/-- Repairs a source: text that starts with a slash first, then text over several lines. -/
def repair (options : RepairOptions) (source : Text) : Repair.Result :=
  let lines := Repair.numberFrom 1 (Text.lines source)
  let (lines, slashes) :=
    if options.slashes then Repair.pipeSlashes options.layout lines else (lines, [])
  let (lines, folds) :=
    if options.multiline then Repair.pipeMultiline options.layout lines else (lines, [])
  ⟨Repair.unlines lines, slashes ++ folds, options.previewOnly⟩

/-- The bytes of a source cannot be repaired where they are not UTF-8. -/
structure RepairError where
  /-- Why the bytes are not UTF-8. -/
  fault : Text.Utf8Error
  deriving DecidableEq, Repr

/-- The wording of an error. -/
def RepairError.message (e : RepairError) : Text :=
  "invalid input: ".toList ++ e.fault.message

/-- Repairs the bytes of a source. -/
def repairUtf8 (options : RepairOptions) (source : List UInt8) : Except RepairError Repair.Result :=
  match Text.decodeUtf8 source with
  | .ok source => .ok (repair options source)
  | .error fault => .error ⟨fault⟩

end SlimTemplate
