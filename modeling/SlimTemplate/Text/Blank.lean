import SlimTemplate.Text.Basic

/-!
# Blank characters

A character is blank when it has the Unicode property White_Space. Trimming, splitting into words
and collapsing all use this one class.

## Main definitions

* `Text.isBlank`: the White_Space property.
* `Text.trim`: a text without the blanks at its two ends.
* `Text.words`: the maximal runs of characters that are not blank.
* `Text.collapse`: the words joined by single spaces.

## Main statements

* `Text.isBlank_of_isWhitespace`: every character of core's whitespace class is blank.
-/

namespace SlimTemplate.Text

/-- The characters with the Unicode property White_Space. -/
def isBlank (c : Char) : Bool :=
  let n := c.toNat
  (0x09 ≤ n && n ≤ 0x0D) || n == 0x20 || n == 0x85 || n == 0xA0 || n == 0x1680 ||
    (0x2000 ≤ n && n ≤ 0x200A) || n == 0x2028 || n == 0x2029 || n == 0x202F || n == 0x205F ||
    n == 0x3000

/-- The text without its leading blanks. -/
def trimStart (text : Text) : Text :=
  text.dropWhile isBlank

/-- The text without the trailing characters that satisfy `p`. -/
def dropEndWhile (p : Char → Bool) : Text → Text
  | [] => []
  | c :: text =>
    match dropEndWhile p text with
    | [] => if p c then [] else [c]
    | rest => c :: rest

/-- The text without its trailing blanks. -/
def trimEnd (text : Text) : Text :=
  dropEndWhile isBlank text

/-- The text without the blanks at its two ends. -/
def trim (text : Text) : Text :=
  trimEnd (trimStart text)

/-- The words of a text, given the word that is being read. -/
def wordsFrom (word : Text) : Text → List Text
  | [] => if word.isEmpty then [] else [word.reverse]
  | c :: text =>
    if isBlank c then
      if word.isEmpty then wordsFrom [] text else word.reverse :: wordsFrom [] text
    else
      wordsFrom (c :: word) text

/-- The maximal runs of characters that are not blank. -/
def words (text : Text) : List Text :=
  wordsFrom [] text

/-- The words of a text joined by single spaces. -/
def collapse (text : Text) : Text :=
  joinWith [' '] (words text)

theorem isBlank_of_isWhitespace {c : Char} (h : c.isWhitespace = true) : isBlank c = true := by
  simp only [Char.isWhitespace, Bool.or_eq_true, decide_eq_true_eq] at h
  rcases h with ((rfl | rfl) | rfl) | rfl <;> decide

end SlimTemplate.Text
