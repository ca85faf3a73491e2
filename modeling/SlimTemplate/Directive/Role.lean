import SlimTemplate.Directive.Basic
import SlimTemplate.Text.Word

/-!
# The roles of directives

Whether a directive opens a block, continues one with a branch, or ends it is decided by the words
at the two ends of its code.

## Main definitions

* `Directive.endsInDo`: whether code ends by opening a `do` block.
* `Directive.opensBlock`: whether a directive opens a block.
* `Directive.isBranch`: whether a directive continues a block with a branch.
* `Directive.endsBlock`: whether a directive ends a block.
-/

namespace SlimTemplate.Directive

/-- The words that open a block at the start of code. -/
def blockKeywords : List Text :=
  ["case", "if", "for", "unless", "until", "while"].map String.toList

/-- The words that continue a block at the start of code and need more code. -/
def branchKeywords : List Text :=
  ["elsif", "when"].map String.toList

/-- Whether a text begins with a word and a blank after it. -/
def startsWithWord (word text : Text) : Bool :=
  match Text.dropPrefix? word text with
  | some (c :: _) => Text.isBlank c
  | _ => false

/-- Whether a text, the last character first, ends in the word `do`. -/
def endsInDoWord : Text → Bool
  | 'o' :: 'd' :: before => Text.atWordEnd before
  | _ => false

/-- Whether code ends by opening a `do` block: in the word `do`, or in `do` and parameters between
two bars. -/
def endsInDo (code : Text) : Bool :=
  let reversed := code.reverse.dropWhile Text.isBlank
  endsInDoWord reversed ||
    match reversed with
    | '|' :: rest =>
      match rest.dropWhile (· ≠ '|') with
      | _ :: before => endsInDoWord (before.dropWhile Text.isBlank)
      | [] => false
    | _ => false

/-- Whether a directive opens a block. -/
def opensBlock (d : Directive) : Bool :=
  blockKeywords.any (startsWithWord · d.code) || endsInDo d.code

/-- Whether a directive continues a block with a branch. -/
def isBranch (d : Directive) : Bool :=
  !d.isOutput && (d.code = "else".toList || branchKeywords.any (startsWithWord · d.code))

/-- Whether a directive ends a block. -/
def endsBlock (d : Directive) : Bool :=
  !d.isOutput && (d.code = "end".toList || d.code = ['}'])

end SlimTemplate.Directive
