import SlimTemplate.Directive.Marker
import SlimTemplate.Html.Reference
import SlimTemplate.Proofs.Text.Replace

/-!
# Code escaped for a marker

Code is escaped in two steps, ampersands before quotes, so that no step touches what another one
wrote and each character is escaped by itself. What is written for an ampersand or a quote is read
as a reference whatever follows, and every other character is read as itself. So the value of a
marker means the code that it was made from, references that the code itself spells included.

## Main definitions

* `Directive.escapeChar`: what is written for a character of code.

## Main statements

* `Directive.escapeCode_eq_flatMap`: code is escaped character by character.
* `Html.Reference.decode_escapeCode`: the value of a marker means its code.
-/

namespace SlimTemplate

namespace Directive

/-- What is written in a marker for a character of its code. -/
def escapeChar (c : Char) : Text :=
  if c = '&' then "&amp;".toList else if c = '"' then "&quot;".toList else [c]

/-- Code is escaped character by character. -/
theorem escapeCode_eq_flatMap (code : Text) : escapeCode code = code.flatMap escapeChar := by
  rw [escapeCode, Text.replaceAll_singleton, Text.replaceAll_singleton, List.flatMap_assoc]
  refine congrArg code.flatMap (funext fun c => ?_)
  rw [escapeChar]
  split
  · decide
  · rw [List.flatMap_singleton]

/-- A character that is used in no reference is in an escaped code only if it is in the code. -/
theorem not_mem_escapeCode {c : Char} {code : Text} (hreference : c ∉ "&amp;&quot;".toList)
    (hcode : c ∉ code) : c ∉ escapeCode code := by
  rw [escapeCode_eq_flatMap]
  intro hmem
  obtain ⟨d, hd, hc⟩ := List.mem_flatMap.1 hmem
  rw [escapeChar] at hc
  split at hc
  · exact hreference (List.mem_append_left "&quot;".toList hc)
  · split at hc
    · exact hreference (List.mem_append_right "&amp;".toList hc)
    · exact hcode (List.mem_singleton.1 hc ▸ hd)

/-- An escaped code does not end the value that it is written in. -/
theorem quote_not_mem_escapeCode (code : Text) : '"' ∉ escapeCode code := by
  rw [escapeCode_eq_flatMap]
  intro hmem
  obtain ⟨d, -, hquote⟩ := List.mem_flatMap.1 hmem
  rw [escapeChar] at hquote
  split at hquote
  · exact absurd hquote (by decide)
  · split at hquote
    · exact absurd hquote (by decide)
    · next hd => exact hd (List.mem_singleton.1 hquote).symm

/-- The tag of a marker holds nothing else but the code. -/
theorem not_mem_openingTag {c : Char} {code : Text}
    (htag : c ∉ "<template data-slim-directive=\">&amp;&quot;".toList) (hcode : c ∉ code) :
    c ∉ openingTag code := by
  have hsplit : "<template data-slim-directive=\">&amp;&quot;".toList =
      "<template data-slim-directive=\"".toList ++ '>' :: "&amp;&quot;".toList := by
    decide
  rw [hsplit, List.mem_append, List.mem_cons, not_or, not_or] at htag
  obtain ⟨hstart, hend, hreference⟩ := htag
  have hquote : c ≠ '"' := by
    rintro rfl
    exact hstart (by decide)
  unfold openingTag
  simp only [List.mem_append, not_or]
  exact ⟨⟨hstart, not_mem_escapeCode hreference hcode⟩,
    mt List.mem_pair.1 (not_or.2 ⟨hquote, hend⟩)⟩

end Directive

namespace Html

namespace Reference

open Directive (escapeChar escapeCode)

theorem decode_cons {c : Char} (h : c ≠ '&') (inAttribute : Bool) (text : Text) :
    decode inAttribute (c :: text) = c :: decode inAttribute text := by
  rw [decode, pieces, if_neg h, List.flatMap_cons, Piece.meant, decode, List.singleton_append]

theorem decode_reference {text : Text} {target : Target} (hnumeric : numeric? text = none)
    (hlongest : longest text = some target) (hclosed : target.isClosed = true)
    (inAttribute : Bool) :
    decode inAttribute ('&' :: text) =
      target.chars ++ decode inAttribute (text.drop target.length) := by
  have hnamed : named? inAttribute text = some target := by
    rw [named?, hlongest]
    simp only [isContinued, hclosed, Bool.not_true, Bool.false_and, Bool.and_false,
      Bool.false_eq_true, if_false]
  rw [decode, pieces, if_pos rfl, hnumeric, hnamed, Option.none_or, List.flatMap_cons, Piece.meant,
    decode]

/-- What is written for a character means that character, whatever follows. -/
theorem decode_escapeChar_append (inAttribute : Bool) (c : Char) (rest : Text) :
    decode inAttribute (escapeChar c ++ rest) = c :: decode inAttribute rest := by
  rw [escapeChar]
  split
  · next hc =>
    subst hc
    have hlongest : longest ("amp;".toList ++ rest) = some ⟨['&'], 4, true⟩ := rfl
    exact decode_reference rfl hlongest rfl inAttribute
  · next hamp =>
    split
    · next hc =>
      subst hc
      have hlongest : longest ("quot;".toList ++ rest) = some ⟨['"'], 5, true⟩ := rfl
      exact decode_reference rfl hlongest rfl inAttribute
    · exact decode_cons hamp inAttribute rest

/-- An escaped code means the code. -/
theorem decode_escapeCode (inAttribute : Bool) (code : Text) :
    decode inAttribute (escapeCode code) = code := by
  rw [Directive.escapeCode_eq_flatMap]
  induction code with
  | nil => rw [List.flatMap_nil, decode, pieces, List.flatMap_nil]
  | cons c code ih => rw [List.flatMap_cons, decode_escapeChar_append, ih]

end Reference

end Html

end SlimTemplate
