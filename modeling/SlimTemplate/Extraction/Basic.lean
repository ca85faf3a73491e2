import SlimTemplate.Extraction.Select
import SlimTemplate.Outcome
import SlimTemplate.Text.Utf8

/-!
# Extraction

A part of a source is chosen and written out as a source of its own. Of several ways to choose the
first that is asked for is taken, or an error is given if the options say so. An element that
wraps all that was chosen may be dropped, and comments with nothing left to comment on are.

## Main definitions

* `ExtractionOptions`: what is extracted.
* `ExtractionError`: why nothing can be extracted.
* `Extraction.Summary`: what was done.
* `Extraction.dropWrapper`, `Extraction.dropOrphans`: the clean-up of chosen lines.
* `extract`, `extractUtf8`: the extraction from a source.
* `Extraction.outcome`, `Extraction.outcomeUtf8`: its outcome.
-/

namespace SlimTemplate

/-- What is extracted. -/
structure ExtractionOptions where
  /-- The depth above which lines are chosen. -/
  outline : Option Nat
  /-- The selector whose blocks are chosen. -/
  selector : Option Text
  /-- The names of the blocks that are chosen. -/
  keep : List Text
  /-- The names of the blocks that are left out. -/
  remove : List Text
  /-- Whether an element that wraps all that was chosen is dropped. -/
  removeWrapper : Bool
  /-- The names of the blocks that are left out when no names are given. -/
  defaultRemove : List Text
  /-- Whether asking for more than one way to choose is an error. -/
  rejectConflicts : Bool
  /-- How lines are read and written. -/
  layout : Layout
  deriving DecidableEq, Repr

/-- The options that hold unless others are given. -/
def ExtractionOptions.standard : ExtractionOptions where
  outline := none
  selector := none
  keep := []
  remove := []
  removeWrapper := false
  defaultRemove := ["doctype", "head", "nav", "header", "footer", "script"].map String.toList
  rejectConflicts := false
  layout := .standard

/-- The ways to choose lines. -/
inductive ExtractionMode where
  | outline
  | selector
  | sections
  deriving DecidableEq, Repr

/-- The word for a way to choose. -/
def ExtractionMode.name : ExtractionMode → Text
  | outline => "outline".toList
  | selector => "selector".toList
  | sections => "keep/remove".toList

/-- The ways to choose that options ask for, in the order of their rank. -/
def ExtractionOptions.modes (options : ExtractionOptions) : List ExtractionMode :=
  (if options.outline.isSome then [.outline] else []) ++
    (if options.selector.isSome then [.selector] else []) ++
    if options.keep.isEmpty && options.remove.isEmpty then [] else [.sections]

/-- Why nothing can be extracted. -/
inductive ExtractionError where
  | notUtf8 (fault : Text.Utf8Error)
  | badSelector (error : SelectorError)
  /-- Every line of the source is blank. -/
  | noContent
  /-- More than one way to choose is asked for. -/
  | conflict (modes : List ExtractionMode)
  deriving DecidableEq, Repr

/-- The wording of an error. -/
def ExtractionError.message : ExtractionError → Text
  | notUtf8 fault => "invalid input: ".toList ++ fault.message
  | badSelector error => error.message
  | noContent => "no content to extract".toList
  | conflict modes =>
    "conflicting options: only one extraction mode may be given, got ".toList ++
      Text.joinWith ", ".toList (modes.map ExtractionMode.name)

namespace Extraction

/-- What was done. -/
inductive Summary where
  /-- The lines above a depth were chosen. -/
  | outline (depth : Nat)
  /-- The blocks of a selector were chosen. -/
  | selector (text : Text)
  | sections (removed : List Text) (kept : Option (List Text))
  deriving DecidableEq, Repr

/-- An extracted part. -/
structure Extract where
  content : Text
  summary : Summary
  deriving DecidableEq, Repr

/-- The lines chosen by names. Names to keep come before names to remove, and the default names
hold only where neither are given. -/
def bySections (options : ExtractionOptions) (tree : LineTree) : List SlimLine × Summary :=
  let keep := splitNames options.keep
  let remove := splitNames options.remove
  let remove :=
    if keep.isEmpty && remove.isEmpty then splitNames options.defaultRemove else remove
  if keep.isEmpty then (removeNamed remove tree.lines, .sections remove none)
  else (keepNamed keep tree.lines, .sections remove (some keep))

/-- The lines chosen in the first of the ways that options ask for. -/
def choose (options : ExtractionOptions) (tree : LineTree) :
    Except ExtractionError (List SlimLine × Summary) :=
  match options.outline, options.selector with
  | some depth, _ => .ok (outline tree.lines depth, .outline depth)
  | none, some text =>
    match Selector.parse text with
    | .ok selector => .ok (select selector tree, .selector text)
    | .error error => .error (.badSelector error)
  | none, none => .ok (bySections options tree)

/-- The lines one level higher. -/
def lift (lines : List SlimLine) : List SlimLine :=
  lines.map fun line => { line with level := line.level - 1 }

/-- Without the only line at the smallest level, if that is an element. -/
def dropWrapper (lines : List SlimLine) : List SlimLine :=
  match SlimLine.leastLevel? lines with
  | none => lines
  | some least =>
    match lines.filter (·.level = least) with
    | [root] =>
      if root.kind.isElement then lift (lines.filter (·.level ≠ least)) else lines
    | _ => lines

/-- Without the comments that no line of their level or a deeper one follows. -/
def dropOrphans : List SlimLine → List SlimLine
  | [] => []
  | line :: lines =>
    match dropOrphans lines with
    | [] => if line.kind.isComment then [] else [line]
    | next :: rest =>
      if line.kind.isComment && next.level < line.level then next :: rest
      else line :: next :: rest

/-- The chosen lines after clean-up. -/
def cleanUp (options : ExtractionOptions) (lines : List SlimLine) : List SlimLine :=
  dropOrphans <|
    if options.removeWrapper && options.outline.isNone then dropWrapper lines else lines

end Extraction

/-- Extracts a part of a source. -/
def extract (options : ExtractionOptions) (source : Text) :
    Except ExtractionError Extraction.Extract :=
  let modes := options.modes
  if options.rejectConflicts && 1 < modes.length then .error (.conflict modes)
  else
    let tree := LineTree.ofSource options.layout source
    if tree.lines.isEmpty then .error .noContent
    else
      (Extraction.choose options tree).map fun (lines, summary) =>
        ⟨SlimLine.render options.layout (Extraction.cleanUp options lines) ++ ['\n'], summary⟩

/-- Extracts a part of the bytes of a source. -/
def extractUtf8 (options : ExtractionOptions) (source : List UInt8) :
    Except ExtractionError Extraction.Extract :=
  match Text.decodeUtf8 source with
  | .ok source => extract options source
  | .error fault => .error (.notUtf8 fault)

namespace Extraction

/-- The outcome of extracting a part of a source. -/
def outcome (options : ExtractionOptions) (source : Text) : Outcome Extract :=
  .ofExcept ExtractionError.message (extract options source)

/-- The outcome of extracting a part of the bytes of a source. -/
def outcomeUtf8 (options : ExtractionOptions) (source : List UInt8) : Outcome Extract :=
  .ofExcept ExtractionError.message (extractUtf8 options source)

end Extraction

end SlimTemplate
