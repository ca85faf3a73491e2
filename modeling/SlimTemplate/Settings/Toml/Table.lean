import SlimTemplate.Settings.Value

/-!
# Tables of settings files

A table comes from a header of its own, from a longer header or from a dotted key, and this decides
who may add to it: a header gives a table its own entries at most once, and dotted keys add only to
tables that dotted keys made. Headers in double brackets make lists of tables. Nothing is named
twice.

## Main definitions

* `Settings.Toml.Item`: what stands under a key.
* `Settings.Toml.Entries.putUnder?`: entries with a value under a dotted key.
* `Settings.Toml.Entries.openTable?`, `Settings.Toml.Entries.openNext?`: entries with a table
  under a header.
* `Settings.Toml.Item.toValue`: the value of what stands under a key.
-/

namespace SlimTemplate.Settings.Toml

/-- What made a table. -/
inductive Origin where
  | header
  /-- A header that names something in it. -/
  | longerHeader
  | dottedKey
  deriving DecidableEq, Repr

/-- What stands under a key. -/
inductive Item where
  | value (value : Value)
  | table (origin : Origin) (entries : List (Text × Item))
  /-- The tables of a list, with the last one apart. -/
  | tables (earlier : List (List (Text × Item))) (last : List (Text × Item))

/-- The entries of a table. -/
abbrev Entries := List (Text × Item)

namespace Entries

/-- Entries with an item under a key, in place of the one that was there. -/
def store (key : Text) (item : Item) : Entries → Entries
  | [] => [(key, item)]
  | (other, old) :: rest =>
    if other = key then (key, item) :: rest else (other, old) :: store key item rest

/-- Entries with a value under a dotted key, if that is allowed there. -/
def putUnder? (value : Value) : List Text → Entries → Option Entries
  | [], _ => none
  | [key], entries =>
    if (entries.lookup key).isSome then none else some (store key (.value value) entries)
  | key :: rest, entries =>
    -- The table that gets the value has to be made by dotted keys.
    let isLast := rest.length = 1
    match entries.lookup key with
    | none => (putUnder? value rest []).map fun inner => store key (.table .dottedKey inner) entries
    | some (.table .dottedKey inner) =>
      (putUnder? value rest inner).map fun inner => store key (.table .dottedKey inner) entries
    | some (.table .longerHeader inner) =>
      if isLast then none
      else
        (putUnder? value rest inner).map fun inner =>
          store key (.table .longerHeader inner) entries
    | some (.tables earlier inner) =>
      if isLast then none
      else (putUnder? value rest inner).map fun inner => store key (.tables earlier inner) entries
    | some (.table .header _) => none
    | some (.value _) => none

/-- Entries with those of the table under the keys of a header changed. Of a list of tables the
last one is meant. -/
def change? (f : Entries → Option Entries) : List Text → Entries → Option Entries
  | [], entries => f entries
  | key :: rest, entries =>
    match entries.lookup key with
    | none => (change? f rest []).map fun inner => store key (.table .longerHeader inner) entries
    | some (.table origin inner) =>
      (change? f rest inner).map fun inner => store key (.table origin inner) entries
    | some (.tables earlier inner) =>
      (change? f rest inner).map fun inner => store key (.tables earlier inner) entries
    | some (.value _) => none

/-- Entries with a table that has a header under a key. -/
def openTable? (key : Text) (entries : Entries) : Option Entries :=
  match entries.lookup key with
  | none => some (store key (.table .header []) entries)
  | some (.table .longerHeader inner) => some (store key (.table .header inner) entries)
  | some _ => none

/-- Entries with one more table in the list under a key. -/
def openNext? (key : Text) (entries : Entries) : Option Entries :=
  match entries.lookup key with
  | none => some (store key (.tables [] []) entries)
  | some (.tables earlier last) => some (store key (.tables (earlier ++ [last]) []) entries)
  | some _ => none

end Entries

mutual

/-- The value of what stands under a key. -/
def Item.toValue : Item → Value
  | .value value => value
  | .table _ entries => .table (valuesOf entries)
  | .tables earlier last => .list (tablesOf earlier ++ [.table (valuesOf last)])

/-- The values of entries. -/
def valuesOf : List (Text × Item) → List (Text × Value)
  | [] => []
  | (key, item) :: rest => (key, item.toValue) :: valuesOf rest

/-- The values of tables. -/
def tablesOf : List (List (Text × Item)) → List Value
  | [] => []
  | entries :: rest => .table (valuesOf entries) :: tablesOf rest

end

end SlimTemplate.Settings.Toml
