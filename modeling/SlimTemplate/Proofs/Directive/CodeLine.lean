import SlimTemplate.Proofs.Directive.Comment
import SlimTemplate.Proofs.Directive.Piecewise
import SlimTemplate.Proofs.Writer.Code

/-!
# Code on one line

Code on one line that has no part in the structure of blocks becomes a comment, and the writer
takes the same code out of that comment again.

## Main definitions

* `Directive.IsCodeLine`: code that a comment holds as it is.

## Main statements

* `Directive.IsCodeLine.rewrite_eq`: the comment that the passes make of it.
* `Directive.IsCodeLine.codeOf?_eq`: the code that the writer takes out of the comment.
-/

namespace SlimTemplate

namespace Directive

/-- Code between the delimiters of a directive, with a space on each side. -/
def ofCode (code : Text) : Directive :=
  ⟨"<%".toList, none, ' ' :: (code ++ [' ']), "%>".toList⟩

/-- Whether a text is code on one line that has no part in the structure of blocks and that a
comment holds as it is. -/
structure IsCodeLine (code : Text) : Prop where
  trim_eq : Text.trim code = code
  ne_nil : code ≠ []
  plain : IsPlain code
  leaf : (ofCode code).isLeaf = true
  not_hyphens : ¬['-', '-'] <:+: code
  not_standIn : ¬arrowStandIn <:+: code
  /-- The label of the comment ends in the colon that a request for indentation begins with. -/
  not_endsInIndent : ¬EndsInIndent (':' :: code)
  oneLine : ∀ c ∈ code, c ≠ '\n' ∧ c ≠ '\r' ∧ c ≠ '\x00'

namespace IsCodeLine

variable {code : Text} (h : IsCodeLine code)
include h

theorem code_eq : (ofCode code).code = code :=
  spaced_code h.trim_eq none

theorem isOneLine : (ofCode code).IsOneLine :=
  spaced_isOneLine (.inl rfl) h.plain fun hmem => (h.oneLine _ hmem).1 rfl

theorem not_arrow : ¬arrow <:+: code :=
  fun hfound => h.not_hyphens (List.IsInfix.trans ⟨[], ['>'], rfl⟩ hfound)

/-- The data of the comment that carries the code. -/
theorem commentData_eq : commentData .code code = "SLIM_CODE:".toList ++ code := by
  rw [commentData, Text.replaceAll_of_not_isInfix h.not_arrow]
  rfl

/-- The passes turn code on one line into a comment. -/
theorem rewrite_eq : rewrite (delimited (' ' :: (code ++ [' ']))) =
    "<!--".toList ++ ("SLIM_CODE:".toList ++ code ++ "-->".toList) := by
  have hsource : (ofCode code).source = delimited (' ' :: (code ++ [' '])) := by
    simp [ofCode, source, delimited]
  have houtput : ¬(ofCode code).isOutput = true := by simp [isOutput, ofCode]
  have hempty : ¬code.isEmpty = true := by rw [List.isEmpty_iff]; exact h.ne_nil
  rw [← hsource, rewrite_leaf h.isOneLine h.leaf, leafMarkup, h.code_eq, if_neg houtput,
    if_neg hempty, encode, h.commentData_eq, List.append_assoc]
  rfl

/-- The writer takes the code out of the comment. -/
theorem codeOf?_eq : codeOf? ("SLIM_CODE:".toList ++ code) = some code := by
  have hlast : ∀ c ∈ code.getLast?, Text.isBlank c = false := fun c hc =>
    Text.getLast?_trim_not_isBlank (h.trim_eq.symm ▸ hc)
  have hdecode := decode_commentData (by decide : CommentKind.code ≠ .stop) hlast h.not_endsInIndent
  rw [h.commentData_eq, Text.replaceAll_of_not_isInfix h.not_arrow,
    Text.replaceAll_of_not_isInfix h.not_standIn] at hdecode
  simp only [codeOf?, hdecode, h.trim_eq]
  exact if_pos ⟨trivial, h.ne_nil⟩

end IsCodeLine

end Directive

end SlimTemplate
