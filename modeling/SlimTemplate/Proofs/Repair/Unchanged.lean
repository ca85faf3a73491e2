import SlimTemplate.Proofs.Repair.Faithful
import SlimTemplate.Proofs.Text.LineEnding

/-!
# A repair that reports no change

A source in which nothing is repaired is still written out line by line. Its lines come out as they
were, but each of them is ended by a line feed: the carriage returns of its line endings are lost,
and a last line without an ending gets one.

## Main statements

* `repair_content_of_not_isChanged`: what is written where nothing is repaired.
-/

namespace SlimTemplate

/-- Where nothing is repaired the lines of the source are written out again. -/
theorem Repair.content_eq_relined {options : RepairOptions} {source : Text}
    (h : (repair options source).isChanged = false) :
    (repair options source).content = relined source := by
  obtain ⟨steps, slashes, folds, haccount, hfixes⟩ :=
    exists_isAccount options (numberFrom 1 (Text.lines source))
  have hnil : (settle options (numberFrom 1 (Text.lines source))).2 = [] := by
    simpa [Result.isChanged, repair_eq] using h
  rw [repair_eq, haccount.written_eq_lines (hfixes.symm.trans hnil), unlines_numberFrom]

/-- A repair that reports no change writes the source with line feeds alone as line endings, and one
more line feed if the source does not end in one. So the source comes out as it was, but for a line
feed at its end, exactly if none of its lines ends in a carriage return and a line feed. -/
theorem repair_content_of_not_isChanged (options : RepairOptions) (source : Text)
    (h : (repair options source).isChanged = false) :
    (repair options source).content = Text.endLast (Text.withLineFeeds source) ∧
      ((repair options source).content = Text.endLast source ↔ ¬['\r', '\n'] <:+: source) := by
  have hcontent : (repair options source).content = Text.endLast (Text.withLineFeeds source) :=
    (Repair.content_eq_relined h).trans (Text.unlines_lines source)
  refine ⟨hcontent, ?_⟩
  rw [hcontent]
  exact Text.endLast_withLineFeeds_eq_iff

/-- A blank line and a carriage return that ends no line stay, and the last line gets an ending. -/
theorem repair_content_of_not_isChanged_unended :
    (repair .standard "p A\n\n  = b\r".toList).isChanged = false ∧
      (repair .standard "p A\n\n  = b\r".toList).content = "p A\n\n  = b\r\n".toList := by
  have hchanged : (repair .standard "p A\n\n  = b\r".toList).isChanged = false := by
    decide +kernel
  have hkept := (repair_content_of_not_isChanged .standard _ hchanged).2.2 (by decide)
  exact ⟨hchanged, hkept.trans (by decide)⟩

/-- A carriage return is lost although no change is reported. -/
theorem repair_content_ne_source :
    (repair .standard "p A\r\n".toList).isChanged = false ∧
      (repair .standard "p A\r\n".toList).content ≠ Text.endLast "p A\r\n".toList := by
  decide +kernel

end SlimTemplate
