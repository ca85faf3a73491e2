import SlimTemplate.Settings.Toml.Moment
import SlimTemplate.Settings.Toml.Number
import SlimTemplate.Settings.Toml.Quoted
import SlimTemplate.Settings.Toml.Table

/-!
# TOML

Settings files are written in TOML: tables under headers in brackets, and in them keys with
values, which are truth values, numbers, moments, texts, lists and tables in braces. A moment is
kept as a text.

## Main definitions

* `Settings.Toml.readValue?`: a value.
* `Settings.Toml.Statement`: what a line of a file says.
* `Settings.Toml.statements?`: the statements of a file.
* `Settings.Toml.parse?`: the table that a file spells.
-/

namespace SlimTemplate.Settings.Toml

/-- The number of parts that a key may have, and of lists and tables that a value may stand in. -/
def mostNested : Nat :=
  79

/-- Whether a character belongs to a value that is a word. -/
def isWordChar (c : Char) : Bool :=
  isKeyChar c || c == '+' || c == '.' || c == ':'

/-- A word. A date and a time with a space between them are one word, with a `T`. -/
def readWord (text : Text) : Text × Text :=
  let word := text.takeWhile isWordChar
  let rest := text.dropWhile isWordChar
  match rest with
  | ' ' :: c :: more =>
    if isDate word && c.isDigit then
      (word ++ 'T' :: (c :: more).takeWhile isWordChar, (c :: more).dropWhile isWordChar)
    else (word, rest)
  | _ => (word, rest)

/-- The value that a word spells: a truth value, a number or a moment. -/
def wordValue? (word : Text) : Option Value :=
  if word = "true".toList then some (.bool true)
  else if word = "false".toList then some (.bool false)
  else
    ((whole? word).map Value.number).orElse fun _ =>
      ((real? word).map Value.real).orElse fun _ => (moment? word).map Value.text

/-- The items of a list up to its closing bracket, within `fuel` of them. -/
def readItems? (read : Text → Read Value) : (fuel : Nat) → Text → Read (List Value)
  | 0, _ => none
  | fuel + 1, text =>
    match skipLines (text.length + 1) text with
    | ']' :: rest => some ([], rest)
    | text =>
      (read text).bind fun (item, rest) =>
        match skipLines (rest.length + 1) rest with
        | ',' :: rest =>
          (readItems? read fuel rest).map fun (more, rest) => (item :: more, rest)
        | ']' :: rest => some ([item], rest)
        | _ => none

/-- A key with its value. -/
def readAssigned? (read : Text → Read Value) (text : Text) : Read (List Text × Value) :=
  (readKeys? mostNested text).bind fun (keys, rest) =>
    match rest with
    | '=' :: rest => (read (skipGap rest)).map fun (value, rest) => ((keys, value), rest)
    | _ => none

/-- The entries of a table in braces up to the closing brace, within `fuel` of them. -/
def readFields? (read : Text → Read Value) :
    (fuel : Nat) → Text → Read (List (List Text × Value))
  | 0, _ => none
  | fuel + 1, text =>
    (readAssigned? read text).bind fun (entry, rest) =>
      match skipGap rest with
      | ',' :: rest =>
        (readFields? read fuel rest).map fun (more, rest) => (entry :: more, rest)
      | '\x7d' :: rest => some ([entry], rest)
      | _ => none

/-- The table in braces with the given entries. -/
def tableOf? (fields : List (List Text × Value)) : Option Value :=
  (fields.foldlM (fun entries (keys, value) => Entries.putUnder? value keys entries) []).map
    fun entries => .table (valuesOf entries)

/-- A value that stands in at most `depth` more lists and tables inside each other. -/
def readValue? : (depth : Nat) → Text → Read Value
  | 0, '[' :: _ => none
  | 0, '\x7b' :: _ => none
  | depth + 1, '[' :: rest =>
    (readItems? (readValue? depth) (rest.length + 1) rest).map fun (items, rest) =>
      (.list items, rest)
  | depth + 1, '\x7b' :: rest =>
    match skipGap rest with
    | '\x7d' :: rest => some (.table [], rest)
    | rest =>
      (readFields? (readValue? depth) (rest.length + 1) rest).bind fun (fields, rest) =>
        (tableOf? fields).map fun value => (value, rest)
  | _, text =>
    match readText? text with
    | some (value, rest) => some (.text value, rest)
    | none =>
      let (word, rest) := readWord text
      (wordValue? word).map fun value => (value, rest)

/-- What a line of a file says. -/
inductive Statement where
  /-- The following keys belong to the table under these keys. -/
  | header (keys : List Text)
  /-- The following keys belong to a new table in the list under these keys. -/
  | listHeader (keys : List Text)
  | entry (keys : List Text) (value : Value)

/-- A header or an entry. -/
def readStatement? (text : Text) : Read Statement :=
  match text with
  | '[' :: '[' :: rest =>
    (readKeys? mostNested rest).bind fun (keys, rest) =>
      match rest with
      | ']' :: ']' :: rest => some (.listHeader keys, rest)
      | _ => none
  | '[' :: rest =>
    (readKeys? mostNested rest).bind fun (keys, rest) =>
      match rest with
      | ']' :: rest => some (.header keys, rest)
      | _ => none
  | text =>
    (readAssigned? (readValue? mostNested) text).map fun ((keys, value), rest) =>
      (.entry keys value, rest)

/-- The statements of a file, within `fuel` of them. -/
def statementsWithin? : (fuel : Nat) → Text → Option (List Statement)
  | 0, _ => none
  | fuel + 1, text =>
    match skipLines (text.length + 1) text with
    | [] => some []
    | text =>
      (readStatement? text).bind fun (statement, rest) =>
        (endLine? rest).bind fun rest =>
          (statementsWithin? fuel rest).map (statement :: ·)

/-- The statements of a file. A byte order mark at its start does not count. -/
def statements? (text : Text) : Option (List Statement) :=
  let text := (Text.dropPrefix? ['\uFEFF'] text).getD text
  statementsWithin? (text.length + 1) text

/-- A table with the change that a header makes in the table around the one it names. -/
def underHeader? (open? : Text → Entries → Option Entries) (keys : List Text)
    (root : Entries) : Option Entries :=
  keys.getLast?.bind fun key => Entries.change? (open? key) keys.dropLast root

/-- The table that statements spell, added to `root`. The keys belong to the table under
`current`. -/
def addAll? (current : List Text) (root : Entries) : List Statement → Option Entries
  | [] => some root
  | .header keys :: rest =>
    (underHeader? Entries.openTable? keys root).bind fun root => addAll? keys root rest
  | .listHeader keys :: rest =>
    (underHeader? Entries.openNext? keys root).bind fun root => addAll? keys root rest
  | .entry keys value :: rest =>
    (Entries.change? (Entries.putUnder? value keys) current root).bind fun root =>
      addAll? current root rest

/-- The table that a file spells. -/
def parse? (text : Text) : Option Value :=
  (statements? text).bind fun statements =>
    (addAll? [] [] statements).map fun entries => .table (valuesOf entries)

end SlimTemplate.Settings.Toml
