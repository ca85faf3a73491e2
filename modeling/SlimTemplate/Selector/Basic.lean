import SlimTemplate.Line.Tree
import SlimTemplate.Selector.Compound

/-!
# Selectors

A selector is a compound selector, or two of them with `>` between: the first must then match the
parent of the line that the second matches.

## Main definitions

* `Selector`: a selector.
* `SelectorError`: why a text is no selector.
* `Selector.parse`: the selector that a text denotes.
* `Selector.selects`: whether a line of a tree is selected.
-/

namespace SlimTemplate

/-- Why a text is no selector. -/
inductive SelectorError where
  | blank
  /-- A side of `>` is blank. -/
  | blankSide (selector : Text)
  /-- There is more than one `>`. -/
  | chained (selector : Text)
  deriving DecidableEq, Repr

/-- The wording of an error. -/
def SelectorError.message : SelectorError → Text
  | blank => "selector is empty".toList
  | blankSide selector =>
    "selector '".toList ++ selector ++ "' has an empty side around '>'".toList
  | chained selector =>
    "selector '".toList ++ selector ++ "' chains more than one '>' combinator".toList

/-- A selector. -/
inductive Selector where
  | simple (compound : Compound)
  /-- A compound selector below the match of another. -/
  | below (parent child : Compound)
  deriving DecidableEq, Repr

namespace Selector

/-- The selector that a text denotes. -/
def parse (text : Text) : Except SelectorError Selector :=
  let text := Text.trim text
  if text.isEmpty then .error .blank
  else
    match Text.cutAt? ['>'] text with
    | none => .ok (.simple (.parse text))
    | some (parent, child) =>
      let parent := Text.trim parent
      let child := Text.trim child
      if child.contains '>' then .error (.chained text)
      else if parent.isEmpty || child.isEmpty then .error (.blankSide text)
      else .ok (.below (.parse parent) (.parse child))

/-- A selector as written. -/
def text : Selector → Text
  | simple compound => compound.text
  | below parent child => parent.text ++ " > ".toList ++ child.text

/-- Whether a selector has two sides. -/
def isChild : Selector → Bool
  | simple _ => false
  | below _ _ => true

/-- Whether the line of that index is selected. -/
def selects (selector : Selector) (tree : LineTree) (index : Nat) : Bool :=
  match tree.lines[index]? with
  | none => false
  | some line =>
    match selector with
    | simple compound => compound.selects line
    | below parent child =>
      child.selects line &&
        match tree.enclosing? index with
        | some enclosing => parent.selects enclosing
        | none => false

end Selector

end SlimTemplate
