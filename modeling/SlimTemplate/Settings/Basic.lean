import SlimTemplate.Extraction.Basic
import SlimTemplate.Repair.Basic
import SlimTemplate.Settings.Toml
import SlimTemplate.Text.Lowercase
import SlimTemplate.Validation.Check

/-!
# Settings

Settings come in layers: the built-in ones, then files, then single values. A later layer wins key
by key. The merged tree is then read leniently: numbers may be written as texts, truth values as
numbers or words.

## Main definitions

* `Settings`: the settings of all tools.
* `SettingsError`: why settings cannot be had.
* `Settings.ofValue`: the settings in a tree of values.
* `Settings.load`: the settings from layers.
-/

namespace SlimTemplate

/-- The settings of all tools. -/
structure Settings where
  parse : Layout
  convert : Layout
  checkConventions : Bool
  strict : Bool
  /-- The number of characters that a line may have. -/
  maxLineLength : Nat
  /-- Whether an element that wraps all that was chosen is dropped. -/
  removeWrapper : Bool
  /-- The names of the blocks that are left out when no names are given. -/
  defaultRemove : List Text
  /-- Whether asking for more than one way to choose is an error. -/
  rejectConflicts : Bool
  /-- Whether text that starts with a slash is repaired. -/
  fixSlashes : Bool
  /-- Whether text over several lines is repaired. -/
  fixMultiline : Bool
  /-- Whether repairs are only to be looked at. -/
  previewOnly : Bool
  deriving DecidableEq, Repr

/-- Why settings cannot be had. -/
inductive SettingsError where
  /-- The key of a value is no path. -/
  | badPath (key : Text)
  /-- A file that is needed is not there. -/
  | missingFile
  /-- A file is not written in TOML. -/
  | malformedFile
  /-- A single value is of another type. -/
  | wrongType
  /-- A single value stands where a table or a list is needed, or a value is missing. -/
  | wrongShape
  deriving DecidableEq, Repr

namespace Settings

/-- The options of validation. -/
def validationOptions (s : Settings) : ValidationOptions :=
  ⟨s.checkConventions, s.strict, s.maxLineLength, s.parse⟩

/-- The options of extraction, without a way to choose. -/
def extractionOptions (s : Settings) : ExtractionOptions :=
  { ExtractionOptions.standard with
    removeWrapper := s.removeWrapper
    defaultRemove := s.defaultRemove
    rejectConflicts := s.rejectConflicts
    layout := s.parse }

/-- The options of repair. -/
def repairOptions (s : Settings) : RepairOptions :=
  ⟨s.fixSlashes, s.fixMultiline, s.previewOnly, s.parse⟩

/-- The words for truth, in small letters. -/
def trueWords : List Text :=
  ["true", "on", "yes"].map String.toList

/-- The words for falsehood, in small letters. -/
def falseWords : List Text :=
  ["false", "off", "no"].map String.toList

/-- The size that a text spells, in digits with or without a plus sign. -/
def sizeOfText? (text : Text) : Option Nat :=
  match text with
  | '+' :: digits => Text.readSize? digits
  | digits => Text.readSize? digits

namespace Value

/-- A value as a size. -/
def toSize : Value → Except SettingsError Nat
  | number n => if n < 0 then .error .wrongType else .ok n.toNat
  | real x => .ok x.toSize
  | bool b => .ok (if b then 1 else 0)
  | text t =>
    let word := Text.toLower t
    if trueWords.contains word then .ok 1
    else if falseWords.contains word then .ok 0
    else
      match sizeOfText? t with
      | some n => .ok n
      | Option.none => .error .wrongType
  | _ => .error .wrongType

/-- A value as a truth value. -/
def toBool : Value → Except SettingsError Bool
  | bool b => .ok b
  | number n => .ok (n ≠ 0)
  | real x => .ok !x.isZero
  | text t =>
    let word := Text.toLower t
    if word = ['1'] || trueWords.contains word then .ok true
    else if word = ['0'] || falseWords.contains word then .ok false
    else .error .wrongType
  | _ => .error .wrongType

/-- A whole number in digits. -/
def numberText (n : Int) : Text :=
  if n < 0 then '-' :: Text.ofNat n.natAbs else Text.ofNat n.natAbs

/-- A value as a text. -/
def toText : Value → Except SettingsError Text
  | text t => .ok t
  | bool b => .ok (if b then "true".toList else "false".toList)
  | number n => .ok (numberText n)
  | real x => .ok x.text
  | _ => .error .wrongType

/-- A value as a list of texts. -/
def toTexts : Value → Except SettingsError (List Text)
  | list items => items.mapM toText
  | _ => .error .wrongShape

/-- The value of a field. A table has it under its name, a list at its place. -/
def field (name : String) (place : Nat) : Value → Except SettingsError Value
  | table entries =>
    match find? name.toList entries with
    | some value => .ok value
    | Option.none => .error .wrongShape
  | list items =>
    match items[place]? with
    | some value => .ok value
    | Option.none => .error .wrongShape
  | _ => .error .wrongShape

end Value

/-- The built-in settings. -/
def builtIn : Settings where
  parse := .standard
  convert := .standard
  checkConventions := ValidationOptions.standard.checkConventions
  strict := ValidationOptions.standard.strict
  maxLineLength := ValidationOptions.standard.maxLineLength
  removeWrapper := ExtractionOptions.standard.removeWrapper
  defaultRemove := ExtractionOptions.standard.defaultRemove
  rejectConflicts := ExtractionOptions.standard.rejectConflicts
  fixSlashes := RepairOptions.standard.slashes
  fixMultiline := RepairOptions.standard.multiline
  previewOnly := RepairOptions.standard.previewOnly

/-- A table of values under names. -/
def tableOf (entries : List (String × Value)) : Value :=
  .table (entries.map fun (name, value) => (name.toList, value))

/-- A size as a value. -/
def sizeValue (n : Nat) : Value :=
  .number n

/-- Settings as a tree of values. -/
def toValue (s : Settings) : Value :=
  tableOf
    [("parse", tableOf [("indent_width", sizeValue s.parse.indentWidth)]),
     ("convert", tableOf [("indent_width", sizeValue s.convert.indentWidth)]),
     ("validate", tableOf
       [("check_conventions", .bool s.checkConventions), ("strict", .bool s.strict),
        ("max_line_length", sizeValue s.maxLineLength)]),
     ("extract", tableOf
       [("remove_wrapper", .bool s.removeWrapper),
        ("default_remove", .list (s.defaultRemove.map .text)),
        ("reject_conflicting_modes", .bool s.rejectConflicts)]),
     ("fix", tableOf
       [("fix_slashes", .bool s.fixSlashes), ("fix_multiline", .bool s.fixMultiline),
        ("preview_only", .bool s.previewOnly)])]

/-- The settings in a tree of values. -/
def ofValue (root : Value) : Except SettingsError Settings := do
  let parse ← root.field "parse" 0
  let convert ← root.field "convert" 1
  let validate ← root.field "validate" 2
  let extract ← root.field "extract" 3
  let fix ← root.field "fix" 4
  return {
    parse := ⟨← (← parse.field "indent_width" 0).toSize⟩
    convert := ⟨← (← convert.field "indent_width" 0).toSize⟩
    checkConventions := ← (← validate.field "check_conventions" 0).toBool
    strict := ← (← validate.field "strict" 1).toBool
    maxLineLength := ← (← validate.field "max_line_length" 2).toSize
    removeWrapper := ← (← extract.field "remove_wrapper" 0).toBool
    defaultRemove := ← (← extract.field "default_remove" 1).toTexts
    rejectConflicts := ← (← extract.field "reject_conflicting_modes" 2).toBool
    fixSlashes := ← (← fix.field "fix_slashes" 0).toBool
    fixMultiline := ← (← fix.field "fix_multiline" 1).toBool
    previewOnly := ← (← fix.field "preview_only" 2).toBool }

/-- A layer of settings. -/
inductive Layer where
  /-- A file with the given text. -/
  | file (text : Text)
  /-- A file that is not there. -/
  | missing (isNeeded : Bool)
  deriving DecidableEq, Repr

/-- A tree with the values of a file. The keys at its top are paths, where they can be read so. -/
def addFile (entries : List (Text × Value)) (root : Value) : Value :=
  entries.foldl
    (fun root (key, value) => root |> Value.put value ((Path.parse? key).getD [.key key])) root

/-- A tree with the values of a layer. -/
def addLayer (root : Value) : Layer → Except SettingsError Value
  | .file text =>
    match Toml.parse? text with
    | some table => .ok (addFile table.entries root)
    | none => .error .malformedFile
  | .missing isNeeded => if isNeeded then .error .missingFile else .ok root

/-- A single value and where it goes. -/
def readOverride (entry : Text × Value) : Except SettingsError (Path × Value) :=
  match Path.parse? entry.1 with
  | some path => .ok (path, entry.2)
  | none => .error (.badPath entry.1)

/-- Single values without those that a later one replaces. -/
def lastOfEach : List (Path × Value) → List (Path × Value)
  | [] => []
  | (path, value) :: rest =>
    if rest.any (·.1 == path) then lastOfEach rest else (path, value) :: lastOfEach rest

/-- The settings from layers over the built-in ones, with single values over all. The keys of
the single values are read first. Of two for one path only the later counts. -/
def load (layers : List Layer) (overrides : List (Text × Value)) :
    Except SettingsError Settings := do
  let overrides ← overrides.mapM readOverride
  let root ← layers.foldlM addLayer builtIn.toValue
  let put (root : Value) (entry : Path × Value) : Value := Value.put entry.2 entry.1 root
  ofValue ((lastOfEach overrides).foldl put root)

end Settings

end SlimTemplate
