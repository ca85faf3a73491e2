import SlimTemplate.Proofs.Directive.Program
import SlimTemplate.Proofs.Html.Marker
import SlimTemplate.Writer.Entry

/-!
# Block directives carried by markers

A directive that opens a block becomes the start tag of a template, and its code the value of an
attribute of it, behind an equals sign if the directive is an output expression. The value means
the code again, and the sign before it is told from the code because the code of any other
directive does not begin with one. So the writer writes the line of the directive from the code
that stood in it.

## Main definitions

* `Directive.IsBlockCode`: code on one line that opens a block.

## Main statements

* `Directive.toMarkup_spaced_block`: what is read from the markup of a block directive and what is
  written for it.
-/

namespace SlimTemplate.Directive

open Html (Reference.decode scan)
open Markup (Node)
open Writer (nodeEntries nodesEntries startsWithControl)

/-- Code on one line that opens a block behind that sign. -/
structure IsBlockCode (sign : Option Char) (code : Text) : Prop where
  sign_eq : sign = none ∨ sign = some '-' ∨ sign = some '='
  trim_eq : Text.trim code = code
  plain : IsPlain code
  oneLine : '\n' ∉ code
  /-- Any code opens a block with a `do` at its end, and code that is no output with a keyword. -/
  opens : endsInDo code = true ∨
    sign ≠ some '=' ∧ ∃ word ∈ blockKeywords, startsWithWord word code = true
  /-- An equals sign before the code is the sign of an output expression. -/
  not_equals : sign ≠ some '=' → code.head? ≠ some '='

namespace IsBlockCode

variable {sign : Option Char} {code : Text} (h : IsBlockCode sign code)
include h

theorem isOpener : (spaced sign code).isOpener = true := by
  rw [Directive.isOpener, spaced_code h.trim_eq, Bool.or_eq_true, Bool.and_eq_true]
  rcases h.opens with hdo | ⟨hsign, hword⟩
  · exact .inr hdo
  · refine .inl ⟨?_, List.any_eq_true.2 hword⟩
    rw [spaced_isOutput, decide_eq_false hsign]
    rfl

theorem ne_nil : code ≠ [] := by
  rintro rfl
  rcases h.opens with hdo | ⟨-, hword⟩
  · exact absurd hdo (by decide)
  · exact absurd hword (by decide)

/-- The directive becomes the start tag of a template. -/
theorem toMarkup_eq :
    toMarkup (spaced sign code).source = openingTag (markerValue (spaced sign code)) := by
  have hline := spaced_isOneLine h.sign_eq h.plain h.oneLine
  rw [hline.isTagFree.toMarkup_eq, rewrite_opener hline h.isOpener]

/-- The sign and the code are told apart again. -/
theorem ofMarker_eq (children : List Node) :
    Node.ofMarker (markerValue (spaced sign code)) children =
      .block (sign = some '=') code children := by
  have hcode := spaced_code h.trim_eq sign
  rw [markerValue, hcode, spaced_isOutput]
  by_cases hsign : sign = some '='
  · rw [decide_eq_true hsign, if_pos rfl, Node.ofMarker, h.trim_eq]
  · have hhead := h.not_equals hsign
    rw [decide_eq_false hsign, if_neg Bool.false_ne_true]
    unfold Node.ofMarker
    split
    · exact absurd rfl hhead
    · rw [h.trim_eq]

theorem nodeEntries_eq (depth : Nat) (children : List Node) :
    nodeEntries depth (.block (sign = some '=') code children) =
      ⟨depth, if sign = some '=' ∧ startsWithControl code = false then "= ".toList ++ code
        else "- ".toList ++ code⟩ :: nodesEntries (depth + 1) children := by
  have hempty : ¬code.isEmpty = true := by
    rw [List.isEmpty_iff]
    exact h.ne_nil
  rw [nodeEntries, if_neg hempty, Writer.blockLine, Writer.codeLine]
  simp only [Bool.and_eq_true, decide_eq_true_eq, Bool.not_eq_true']

end IsBlockCode

/-- A block directive on one line becomes one start tag of a template. The value of its attribute
means the sign of an output expression and the code, so the block that is made of it has the code
of the directive, and the line that is written for the block is that code behind an equals sign if
the directive is an output expression that begins with no control keyword, and behind a hyphen
otherwise. -/
theorem toMarkup_spaced_block {sign : Option Char} {code : Text} (h : IsBlockCode sign code) :
    ∃ value,
      toMarkup ("<%".toList ++ sign.toList ++ " ".toList ++ code ++ " %>".toList) =
        "<template data-slim-directive=\"".toList ++ value ++ "\">".toList ∧
      '"' ∉ value ∧
      ('\x00' ∉ code → ∀ inForeign rest,
        scan inForeign
            ("<template data-slim-directive=\"".toList ++ value ++ "\">".toList ++ rest) =
          ([.tag ⟨.start, "template",
            [("data-slim-directive".toList, Reference.decode true value)], false⟩], rest)) ∧
      ∀ children depth,
        Node.ofMarker (Reference.decode true value) children =
          .block (sign = some '=') code children ∧
        nodeEntries depth (Node.ofMarker (Reference.decode true value) children) =
          ⟨depth, if sign = some '=' ∧ startsWithControl code = false then "= ".toList ++ code
            else "- ".toList ++ code⟩ :: nodesEntries (depth + 1) children := by
  have hdecode := Html.Reference.decode_escapeCode true (markerValue (spaced sign code))
  refine ⟨escapeCode (markerValue (spaced sign code)), ?_, quote_not_mem_escapeCode _,
    fun hnul inForeign rest => ?_, fun children depth => ?_⟩
  · rw [← spaced_source, h.toMarkup_eq]
    rfl
  · have hvalue : '\x00' ∉ markerValue (spaced sign code) :=
      not_mem_markerValue (by decide) ((spaced_code h.trim_eq sign).symm ▸ hnul)
    rw [hdecode]
    exact Html.scan_openingTag hvalue inForeign rest
  · rw [hdecode, h.ofMarker_eq]
    exact ⟨rfl, h.nodeEntries_eq depth children⟩

/-- Code with quotes, an ampersand and text that already is a reference. -/
def quotedCode : Text :=
  "link_to(\"a &amp; b\", x && y, '&quot') do |l|".toList

/-- The output expression of such code is carried by one value and written as it was. -/
theorem toMarkup_spaced_block_quotedCode : ∃ value,
    toMarkup ("<%= ".toList ++ quotedCode ++ " %>".toList) =
      "<template data-slim-directive=\"".toList ++ value ++ "\">".toList ∧
      nodeEntries 0 (Node.ofMarker (Reference.decode true value) []) =
        [⟨0, "= ".toList ++ quotedCode⟩] := by
  have h : IsBlockCode (some '=') quotedCode :=
    ⟨by decide, by decide, by decide, by decide, by decide, by decide⟩
  obtain ⟨value, hmarkup, -, -, hline⟩ := toMarkup_spaced_block h
  exact ⟨value, hmarkup, (hline [] 0).2⟩

end SlimTemplate.Directive
