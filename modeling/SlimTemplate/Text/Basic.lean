/-!
# Text as a list of characters

Every part of this library reads and writes `Text`, a list of characters, so that a property of a
text can be proved by induction on it. This file holds the general operations: finding,
replacing, cutting and joining.

## Main definitions

* `Text.dropPrefix?`: what follows a given beginning.
* `Text.hasInfix`: whether a text occurs in another.
* `Text.replaceAll`: every occurrence of a text replaced, from the left.
* `Text.splitOn`: the parts between separators.
* `Text.joinWith`: parts joined by a separator.
-/

namespace SlimTemplate

/-- A text is the list of its characters. -/
abbrev Text := List Char

namespace Text

/-- What follows `start` in a text that begins with it. -/
def dropPrefix? : (start text : Text) → Option Text
  | [], text => some text
  | _ :: _, [] => none
  | p :: start, c :: text => if p = c then dropPrefix? start text else none

/-- Whether the text begins with `start`. -/
def hasPrefix (start text : Text) : Bool :=
  (dropPrefix? start text).isSome

/-- Whether `part` occurs somewhere in the text. -/
def hasInfix (part : Text) : Text → Bool
  | [] => part.isEmpty
  | c :: text => hasPrefix part (c :: text) || hasInfix part text

/-- Whether the text ends with `ending`. -/
def hasSuffix (ending text : Text) : Bool :=
  hasPrefix ending.reverse text.reverse

/-- The text before the first occurrence of `part` and the text after it. -/
def cutAt? (part : Text) : Text → Option (Text × Text)
  | [] => if part.isEmpty then some ([], []) else none
  | c :: text =>
    match dropPrefix? part (c :: text) with
    | some rest => some ([], rest)
    | none => (cutAt? part text).map fun (before, after) => (c :: before, after)

/-- Every occurrence of a non-empty `part`, found from the left and without overlaps, becomes
`replacement`. The number `skip` counts the characters that belong to the occurrence just
replaced. -/
def replaceFrom (part replacement : Text) : (skip : Nat) → Text → Text
  | _, [] => []
  | skip + 1, _ :: text => replaceFrom part replacement skip text
  | 0, c :: text =>
    if hasPrefix part (c :: text) then
      replacement ++ replaceFrom part replacement (part.length - 1) text
    else
      c :: replaceFrom part replacement 0 text

/-- Every occurrence of a non-empty `part` becomes `replacement`. -/
def replaceAll (part replacement text : Text) : Text :=
  replaceFrom part replacement 0 text

/-- The parts of a text between occurrences of a separating character. There is always at least
one part. -/
def splitOn (separator : Char) : Text → List Text
  | [] => [[]]
  | c :: text =>
    if c = separator then
      [] :: splitOn separator text
    else
      match splitOn separator text with
      | [] => [[c]]
      | first :: more => (c :: first) :: more

/-- The parts joined, with the separator between neighbours. -/
def joinWith (separator : Text) : List Text → Text
  | [] => []
  | [part] => part
  | part :: more => part ++ separator ++ joinWith separator more

/-- A run of `n` spaces. -/
def spaces (n : Nat) : Text :=
  List.replicate n ' '

/-- The text with its ASCII capitals made small. -/
def toAsciiLower (text : Text) : Text :=
  text.map Char.toLower

/-- Equality of texts up to the case of ASCII letters. -/
def eqIgnoreAsciiCase (a b : Text) : Bool :=
  toAsciiLower a == toAsciiLower b

/-- A number in decimal digits. -/
def ofNat (n : Nat) : Text :=
  Nat.toDigits 10 n

theorem length_dropPrefix? {start text rest : Text}
    (h : dropPrefix? start text = some rest) : rest.length ≤ text.length := by
  fun_induction dropPrefix? start text with
  | case1 => simp_all
  | case2 => simp at h
  | case3 start c text ih => have := ih h; simp only [List.length_cons]; omega
  | case4 => simp at h

theorem length_cutAt? {part text before after : Text}
    (h : cutAt? part text = some (before, after)) : after.length ≤ text.length := by
  fun_induction cutAt? part text generalizing before with
  | case1 => simp_all
  | case2 => simp at h
  | case3 c text rest hr =>
    obtain ⟨-, rfl⟩ := by simpa using h
    exact length_dropPrefix? hr
  | case4 c text _ ih =>
    obtain ⟨⟨b, a⟩, hb, heq⟩ := Option.map_eq_some_iff.1 h
    simp only [Prod.mk.injEq] at heq
    obtain ⟨-, rfl⟩ := heq
    have := ih hb
    simp only [List.length_cons]
    omega

end Text

end SlimTemplate
