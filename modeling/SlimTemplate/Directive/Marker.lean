import SlimTemplate.Directive.Role
import SlimTemplate.Text.Number

/-!
# Markers for block directives and for directives in tags

A block directive becomes an open template that carries its code in an attribute, so that reading
the markup nests what follows inside it. A directive inside of a tag must not be touched at all:
it is set aside under a number and put back at the end.

## Main definitions

* `Directive.openingTag`, `Directive.closingTag`: the tags that stand for a block.
* `Directive.setAside`: the directives inside of tags set aside.
* `Directive.putBack`: the directives put back.
-/

namespace SlimTemplate.Directive

/-- The code of a directive as the value of an attribute. -/
def escapeCode (code : Text) : Text :=
  Text.replaceAll ['"'] "&quot;".toList (Text.replaceAll ['&'] "&amp;".toList code)

/-- The start tag that stands for a block directive. A leading `=` marks output. -/
def openingTag (code : Text) : Text :=
  "<template data-slim-directive=\"".toList ++ escapeCode code ++ "\">".toList

/-- The end tag that stands for the end of a block. -/
def closingTag : Text :=
  "</template>".toList

/-- The text before the number of a directive set aside. -/
def placeholderStart : Text :=
  "__SLIM_ATTR_DIRECTIVE_".toList

/-- The text that stands for the directive of that number. -/
def placeholder (n : Nat) : Text :=
  placeholderStart ++ Text.ofNat n ++ "__".toList

/-- Where a text is read while directives are set aside. -/
inductive Place where
  | outside
  /-- In a tag: the quote that is open, and whether the character before is an equals sign. -/
  | inTag (quote : Option Char) (afterEquals : Bool)

/-- Whether the text after a `<` makes it the start of a tag. -/
def opensTag : Text → Bool
  | [] => false
  | c :: _ => c.isAlpha || c = '/'

/-- The place after one more character. A quote opens a value only directly after an equals sign,
and a `>` outside of a value ends the tag. -/
def Place.next (c : Char) (text : Text) : Place → Place
  | outside => if c = '<' && opensTag text then inTag none false else outside
  | inTag (some q) _ => inTag (if c = q then none else some q) (c = '=')
  | inTag none afterEquals =>
    if (c = '"' || c = '\'') && afterEquals then inTag (some c) false
    else if c = '>' then outside
    else inTag none (c = '=')

/-- The code of a directive inside of a tag, and what follows its `%>`. -/
def codeInTag? (place : Place) (text : Text) : Option (Text × Text) :=
  match place, text with
  | .inTag _ _, '<' :: '%' :: rest => Text.cutAt? "%>".toList rest
  | _, _ => none

/-- Whether a directive starts inside of a tag and is left open. The rest of the text then stays
as it is. -/
def isLeftOpen (place : Place) (text : Text) : Bool :=
  match place, text with
  | .inTag _ _, '<' :: '%' :: rest => (Text.cutAt? "%>".toList rest).isNone
  | _, _ => false

theorem length_codeInTag? {place : Place} {text code after : Text}
    (h : codeInTag? place text = some (code, after)) : after.length < text.length := by
  unfold codeInTag? at h
  split at h
  · have := Text.length_cutAt? h
    simp only [List.length_cons]
    omega
  · simp at h

/-- The text with the directives inside of tags replaced, and those directives in order. The
directives are numbered from `n` on. -/
def setAsideFrom (n : Nat) (place : Place) : Text → Text × List Text
  | [] => ([], [])
  | c :: text =>
    match _h : codeInTag? place (c :: text) with
    | some (code, after) =>
      -- What follows a directive does not follow an equals sign.
      let place : Place :=
        match place with
        | .inTag quote _ => .inTag quote false
        | .outside => .outside
      let (rest, more) := setAsideFrom (n + 1) place after
      (placeholder n ++ rest, ("<%".toList ++ code ++ "%>".toList) :: more)
    | none =>
      if isLeftOpen place (c :: text) then (c :: text, [])
      else
        let (rest, more) := setAsideFrom n (place.next c text) text
        (c :: rest, more)
termination_by text => text.length
decreasing_by
  · exact length_codeInTag? _h
  · simp

/-- The text with the directives inside of tags replaced by numbers from `n` on, and those
directives in order. -/
def setAside (n : Nat) (text : Text) : Text × List Text :=
  setAsideFrom n .outside text

/-- The digits of a placeholder at the start of a text, and what follows the placeholder. -/
def readPlaceholder? (text : Text) : Option (Text × Text) :=
  match Text.dropPrefix? placeholderStart text with
  | none => none
  | some rest =>
    let digits := rest.takeWhile Text.isDecimalDigit
    if digits.isEmpty then none
    else
      (Text.dropPrefix? "__".toList (rest.dropWhile Text.isDecimalDigit)).map fun after =>
        (digits, after)

theorem length_readPlaceholder? {c : Char} {text digits after : Text}
    (h : readPlaceholder? (c :: text) = some (digits, after)) :
    after.length ≤ text.length := by
  unfold readPlaceholder? at h
  split at h
  · simp at h
  · next rest hr =>
    simp only at h
    split at h
    · simp at h
    · obtain ⟨a, ha, heq⟩ := Option.map_eq_some_iff.1 h
      obtain ⟨-, rfl⟩ := Prod.mk.inj heq
      have h1 := Text.length_dropPrefix? ha
      have h2 := (List.dropWhile_sublist (l := rest) Text.isDecimalDigit).length_le
      have h3 : rest.length ≤ text.length := by
        have : placeholderStart = '_' :: placeholderStart.tail := rfl
        rw [this, Text.dropPrefix?] at hr
        split at hr
        · exact Text.length_dropPrefix? hr
        · simp at hr
      omega

/-- The text with every placeholder replaced by the directive of its number. One whose number was
not given out stays. -/
def putBack (stash : List Text) : Text → Text
  | [] => []
  | c :: text =>
    match _h : readPlaceholder? (c :: text) with
    | some (digits, after) =>
      match (Text.readSize? digits).bind (stash[·]?) with
      | some directive => directive ++ putBack stash after
      | none => placeholderStart ++ digits ++ "__".toList ++ putBack stash after
    | none => c :: putBack stash text
termination_by text => text.length
decreasing_by
  · exact Nat.lt_succ_of_le (length_readPlaceholder? _h)
  · exact Nat.lt_succ_of_le (length_readPlaceholder? _h)
  · simp

end SlimTemplate.Directive
