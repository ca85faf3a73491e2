import SlimTemplate.Html.Reference
import SlimTemplate.Html.Token.Basic

/-!
# Raw text

Some elements hold text in which markup is not read: it runs to the end tag of the element. The
text of a script may in turn hold a comment, and in the comment a script of its own, whose end tag
is text.

## Main definitions

* `Html.RawKind`: how the text of an element is read.
* `Html.scanRaw`: the text of an element, and what follows from its end tag on.
-/

namespace SlimTemplate.Html

/-- How the text of an element without inner markup is read. -/
inductive RawKind where
  | references
  | verbatim
  /-- The text stands for itself and may hold comments that hide end tags. -/
  | script
  /-- The text stands for itself and never ends. -/
  | endless
  deriving DecidableEq, Repr

/-- Whether the text after a `<` is `name`, and the name ends there. -/
def startsTag (name text : Text) : Bool :=
  Text.toAsciiLower (text.take name.length) = name &&
    match text.drop name.length with
    | [] => false
    | c :: _ => isSpace c || c == '/' || c == '>'

/-- The text up to the end tag of `name`, and the rest from that tag on. -/
def untilEndTag (name : Text) : Text → Text × Text
  | [] => ([], [])
  | c :: text =>
    if c = '<' && startsTag ('/' :: name) text then ([], c :: text)
    else let (content, rest) := untilEndTag name text; (c :: content, rest)

/-- How deep in comments and inner scripts the text of a script is. The number counts the hyphens
directly before, up to two. -/
inductive ScriptDepth where
  | plain
  | comment (hyphens : Nat)
  /-- In a script inside a comment. -/
  | inner (hyphens : Nat)

/-- The depth after one more character, with the text that follows it. -/
def ScriptDepth.next (c : Char) (text : Text) : ScriptDepth → ScriptDepth
  | plain => if c = '<' && Text.hasPrefix "!--".toList text then comment 0 else plain
  | comment hyphens =>
    if c = '-' then comment (min 2 (hyphens + 1))
    else if c = '>' && hyphens = 2 then plain
    else if c = '<' && startsTag "script".toList text then inner 0
    else comment 0
  | inner hyphens =>
    if c = '-' then inner (min 2 (hyphens + 1))
    else if c = '>' && hyphens = 2 then plain
    else if c = '<' && startsTag "/script".toList text then comment 0
    else inner 0

/-- Whether an end tag is text at this depth. -/
def ScriptDepth.hidesEndTag : ScriptDepth → Bool
  | inner _ => true
  | _ => false

/-- The text of a script up to its end tag, and the rest from that tag on. -/
def untilScriptEnd (name : Text) : ScriptDepth → Text → Text × Text
  | _, [] => ([], [])
  | depth, c :: text =>
    if c = '<' && !depth.hidesEndTag && startsTag ('/' :: name) text then ([], c :: text)
    else
      let (content, rest) := untilScriptEnd name (depth.next c text) text
      (c :: content, rest)

/-- The text of an element of that name and the rest from its end tag on. -/
def cutRaw (kind : RawKind) (name text : Text) : Text × Text :=
  match kind with
  | .references | .verbatim => untilEndTag name text
  | .script => untilScriptEnd name .plain text
  | .endless => (text, [])

/-- The tokens of raw text. -/
def rawTokens (kind : RawKind) (content : Text) : List Token :=
  match kind with
  | .references => charsMeant (replaceNul content)
  | _ => chars (replaceNul content)

/-- The tokens of the text of an element of that name, and the rest from its end tag on. -/
def scanRaw (kind : RawKind) (name text : Text) : List Token × Text :=
  let (content, rest) := cutRaw kind name text
  (rawTokens kind content, rest)

theorem length_untilEndTag_le (name text : Text) :
    (untilEndTag name text).2.length ≤ text.length := by
  fun_induction untilEndTag name text with
  | case1 => simp
  | case2 => simp
  | case3 c text _ _ _ _ ih => simp_all; omega

theorem length_untilScriptEnd_le (name : Text) (depth : ScriptDepth) (text : Text) :
    (untilScriptEnd name depth text).2.length ≤ text.length := by
  fun_induction untilScriptEnd name depth text with
  | case1 => simp
  | case2 => simp
  | case3 depth c text _ _ _ _ ih => simp_all; omega

theorem length_scanRaw_le (kind : RawKind) (name text : Text) :
    (scanRaw kind name text).2.length ≤ text.length := by
  cases kind with
  | references => exact length_untilEndTag_le name text
  | verbatim => exact length_untilEndTag_le name text
  | script => exact length_untilScriptEnd_le name .plain text
  | endless => simp [scanRaw, cutRaw]

end SlimTemplate.Html
