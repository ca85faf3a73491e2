import SlimTemplate.Settings.Binary64

/-!
# Setting values

Settings are kept in a tree of tables, lists and single values. A value is put into the tree under
a path. A table that is put where a table already is adds to it; anything else replaces what was
there, and what is missing on the way is created.

## Main definitions

* `Settings.Value`: the values of settings.
* `Settings.Path`: the place of a value, with `Settings.Path.parse?`.
* `Settings.Value.put`: a value put under a path.
-/

namespace SlimTemplate.Settings

/-- The values of settings. -/
inductive Value where
  | none
  | bool (value : Bool)
  | number (value : Int)
  | real (value : Binary64)
  | text (value : Text)
  | list (items : List Value)
  | table (entries : List (Text × Value))

/-- A step towards a value. -/
inductive Step where
  /-- To the value under a key. -/
  | key (name : Text)
  /-- To an item of a list. A negative number counts from the end. -/
  | item (index : Int)
  deriving DecidableEq, Repr

/-- The place of a value in a tree: the steps to it in order. -/
abbrev Path := List Step

namespace Path

/-- The characters of keys in a path. A space is one of them. -/
def isKeyChar (c : Char) : Bool :=
  c.isAlphanum || c == '_' || c == '-' || c == ' '

/-- The number of an item, as written between brackets. Spaces and tabs may stand around it. -/
def readIndex? (text : Text) : Option Int :=
  let isGap (c : Char) : Bool := c == ' ' || c == '\t'
  match ((text.dropWhile isGap).reverse.dropWhile isGap).reverse with
  | '-' :: digits =>
    ((Text.readSize? digits).filter (· ≤ Text.signedRange)).map fun n => -(n : Int)
  | digits => ((Text.readSize? digits).filter (· < Text.signedRange)).map fun n => (n : Int)

/-- The steps after the first, within `fuel` steps. -/
def parseSteps? : (fuel : Nat) → Text → Option Path
  | _, [] => some []
  | 0, _ => none
  | fuel + 1, '.' :: rest =>
    let name := rest.takeWhile isKeyChar
    if name.isEmpty then none
    else (parseSteps? fuel (rest.dropWhile isKeyChar)).map (.key name :: ·)
  | fuel + 1, '[' :: rest =>
    match Text.cutAt? [']'] rest with
    | none => none
    | some (digits, rest) =>
      (readIndex? digits).bind fun index => (parseSteps? fuel rest).map (.item index :: ·)
  | _ + 1, _ => none

/-- The path that a text denotes: a key, followed by keys after dots and numbers in brackets. -/
def parse? (text : Text) : Option Path :=
  parseSteps? (text.length + 1) ('.' :: text)

end Path

namespace Value

/-- The value under a key of entries. -/
def find? (name : Text) (entries : List (Text × Value)) : Option Value :=
  entries.lookup name

/-- Entries with a value under a key, in place of the one that was there. -/
def store (name : Text) (value : Value) : List (Text × Value) → List (Text × Value)
  | [] => [(name, value)]
  | (key, old) :: rest =>
    if key = name then (key, value) :: rest else (key, old) :: store name value rest

/-- The entries of a value; one that is no table has none. -/
def entries : Value → List (Text × Value)
  | table entries => entries
  | _ => []

/-- The items of a value; one that is no list has none. -/
def items : Value → List Value
  | list items => items
  | _ => []

mutual

/-- A value put under a key. A table adds to the value that is there. -/
def putKey (name : Text) (value : Value) (root : Value) : Value :=
  match value with
  | .table incoming =>
    let target := (find? name root.entries).getD (.table [])
    .table (store name (putAll incoming target) root.entries)
  | value => .table (store name value root.entries)
termination_by sizeOf value

/-- Every entry put under its key. -/
def putAll (incoming : List (Text × Value)) (root : Value) : Value :=
  match incoming with
  | [] => root
  | (name, value) :: rest => putAll rest (putKey name value root)
termination_by sizeOf incoming

end

/-- Items with the one at a place changed. Missing items before it are no values. -/
def alterItem (f : Value → Value) : Nat → List Value → List Value
  | 0, [] => [f .none]
  | 0, item :: rest => f item :: rest
  | n + 1, [] => .none :: alterItem f n []
  | n + 1, item :: rest => item :: alterItem f n rest

/-- Items with the one of a number changed. A negative number counts from the end, and items that
are missing before the first are no values either. -/
def alterAt (f : Value → Value) (index : Int) (items : List Value) : List Value :=
  let place := if index < 0 then index + items.length else index
  if place < 0 then alterItem f 0 (List.replicate place.natAbs .none ++ items)
  else alterItem f place.toNat items

/-- A value put under a path. -/
def put (value : Value) : Path → Value → Value
  | [], root => root
  | [.key name], root => putKey name value root
  | .key name :: rest, root =>
    .table (store name (put value rest ((find? name root.entries).getD .none)) root.entries)
  | [.item index], root =>
    .list (alterAt (fun _ => value) index root.items)
  | .item index :: rest, root =>
    .list (alterAt (put value rest) index root.items)

end Value

end SlimTemplate.Settings
