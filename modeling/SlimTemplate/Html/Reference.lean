import SlimTemplate.Html.Reference.Names
import SlimTemplate.Text.Number

/-!
# Character references

A text of HTML may name a character by `&name;` or by its number, `&#38;` or `&#x26;`. Of several
names that fit, the longest is meant. A number may lack its semicolon, and so may some names; in an
attribute value such a name is no reference when a letter, a digit or `=` follows.

## Main definitions

* `Html.Reference.named?`, `Html.Reference.numeric?`: what an ampersand refers to.
* `Html.Reference.pieces`: a text with its references, taken apart.
* `Html.Reference.decode`: a text with its references replaced.
-/

namespace SlimTemplate.Html.Reference

/-- The characters that numbers from 0x80 to 0x9F stand for, where they differ from their number:
those of the Windows Latin code page. -/
def numberedOtherwise : List (Nat × Nat) :=
  [(0x80, 0x20AC), (0x82, 0x201A), (0x83, 0x0192), (0x84, 0x201E), (0x85, 0x2026),
   (0x86, 0x2020), (0x87, 0x2021), (0x88, 0x02C6), (0x89, 0x2030), (0x8A, 0x0160),
   (0x8B, 0x2039), (0x8C, 0x0152), (0x8E, 0x017D), (0x91, 0x2018), (0x92, 0x2019),
   (0x93, 0x201C), (0x94, 0x201D), (0x95, 0x2022), (0x96, 0x2013), (0x97, 0x2014),
   (0x98, 0x02DC), (0x99, 0x2122), (0x9A, 0x0161), (0x9B, 0x203A), (0x9C, 0x0153),
   (0x9E, 0x017E), (0x9F, 0x0178)]

/-- The character that stands for one that cannot be had. -/
def replacement : Char :=
  '\uFFFD'

/-- What an ampersand refers to: a character or two, and how many characters after the ampersand
spell it. -/
structure Target where
  chars : Text
  /-- The number of characters after the ampersand that belong to the reference. -/
  length : Nat
  /-- Whether the reference ends in its semicolon. -/
  isClosed : Bool
  deriving DecidableEq, Repr

/-- The character of a number. Zero, surrogates and numbers beyond Unicode give the replacement
character. -/
def ofNumber (n : Nat) : Char :=
  match numberedOtherwise.lookup n with
  | some m => Char.ofNat m
  | none =>
    if n = 0 || n > 0x10FFFF || (0xD800 ≤ n && n ≤ 0xDFFF) then replacement else Char.ofNat n

/-- The reference that a number sign begins; `lead` characters stand before the digits. -/
def numberAt? (base lead : Nat) (text : Text) : Option Target :=
  let (number, count) := Text.readNumber base text
  if count = 0 then none
  else
    let isClosed := (text.drop count).head? == some ';'
    some ⟨[ofNumber number], lead + count + (if isClosed then 1 else 0), isClosed⟩

/-- The reference by number after an ampersand. -/
def numeric? : Text → Option Target
  | '#' :: 'x' :: text => numberAt? 16 2 text
  | '#' :: 'X' :: text => numberAt? 16 2 text
  | '#' :: text => numberAt? 10 1 text
  | _ => none

/-- The target of one name when the text begins with it. -/
def nameAt? (text : Text) (entry : String × String) : Option Target :=
  if Text.hasPrefix entry.1.toList text then
    some ⟨entry.2.toList, entry.1.length, entry.1.toList.getLast? == some ';'⟩
  else none

/-- The longer of two targets. -/
def longer (a b : Option Target) : Option Target :=
  match a, b with
  | none, b => b
  | a, none => a
  | some x, some y => if x.length < y.length then some y else some x

/-- The target of the longest name at the start of a text. -/
def longest (text : Text) : Option Target :=
  match text with
  | [] => none
  | c :: _ => ((namesFrom c).map (nameAt? text)).foldl longer none

/-- Whether a name without semicolon is no reference in an attribute value because of what
follows it. -/
def isContinued (text : Text) (target : Target) : Bool :=
  !target.isClosed &&
    match (text.drop target.length).head? with
    | some c => c == '=' || c.isAlphanum
    | none => false

/-- The reference by name after an ampersand. -/
def named? (inAttribute : Bool) (text : Text) : Option Target :=
  match longest text with
  | none => none
  | some target => if inAttribute && isContinued text target then none else some target

/-- A part of a text in which references stand. -/
inductive Piece where
  /-- A character that stands for itself. -/
  | char (c : Char)
  | reference (target : Target)
  deriving DecidableEq, Repr

/-- What a part of a text means. -/
def Piece.meant : Piece → Text
  | char c => [c]
  | reference target => target.chars

/-- Takes a text apart. An ampersand that begins no reference stands for itself. -/
def pieces (inAttribute : Bool) : Text → List Piece
  | [] => []
  | c :: text =>
    if c = '&' then
      match (numeric? text).or (named? inAttribute text) with
      | some target => .reference target :: pieces inAttribute (text.drop target.length)
      | none => .char c :: pieces inAttribute text
    else .char c :: pieces inAttribute text
termination_by text => text.length
decreasing_by all_goals simp_wf; try omega

/-- The text with its references replaced by the characters meant. -/
def decode (inAttribute : Bool) (text : Text) : Text :=
  (pieces inAttribute text).flatMap Piece.meant

end SlimTemplate.Html.Reference
