import Mathlib.Data.List.Chain
import SlimTemplate.Proofs.Validation.Clean

/-!
# Lines that are too deep

The check of levels is the only one that reports a line as too deep. The innermost open level is
always that of the line before, so nothing is reported exactly if the first line stands at the
margin and every other one at most one level deeper than the line before it.

## Main definitions

* `Report.hasJump`: whether some line is reported as too deep.

## Main statements

* `Validation.hasJump_validate_eq_false_iff`: when no line is reported as too deep.
-/

namespace SlimTemplate

/-- Whether a finding says that a line is too deep. -/
def Finding.isJump : Finding → Bool
  | .inLine _ (.indentJump _ _) => true
  | _ => false

/-- Whether some line is reported as too deep. -/
def Report.hasJump (report : Report) : Bool :=
  report.errors.any Finding.isJump

namespace Validation

variable {options : ValidationOptions} {line : SlimLine}

theorem when_ne_indentJump {issue : Issue} {expected got : Nat}
    (h : issue ≠ .indentJump expected got) (condition : Bool) :
    Check.when condition issue ≠ some (.indentJump expected got) := by
  rw [Check.when]
  split
  · exact fun heq => h (Option.some.inj heq)
  · simp

/-- The checks of single lines look at no levels. -/
theorem indentJump_not_mem_errorChecks {check : Check.LineCheck} (h : check ∈ Check.errorChecks)
    (expected got : Nat) : check options line ≠ some (.indentJump expected got) := by
  simp only [Check.errorChecks, List.mem_cons, List.not_mem_nil, or_false] at h
  rcases h with rfl | rfl | rfl | rfl | rfl
  · rw [Check.leadingSlash]
    split
    · exact when_ne_indentJump (by simp) _
    · simp
  · rw [Check.slashBehindHead]
    split
    · exact when_ne_indentJump (by simp) _
    · simp
  · rw [Check.brackets]
    split <;> simp
  · rw [Check.missingCode]
    split
    · exact when_ne_indentJump (by simp) _
    · simp
  · exact when_ne_indentJump (by simp) _

theorem any_isJump_findings (options : ValidationOptions) (line : SlimLine) :
    (Check.findings Check.errorChecks options line).any Finding.isJump = false := by
  rw [List.any_eq_false]
  intro finding hfinding
  obtain ⟨issue, hissue, rfl⟩ := List.mem_map.1 hfinding
  obtain ⟨check, hcheck, heq⟩ := List.mem_filterMap.1 hissue
  cases issue with
  | indentJump expected got =>
    exact absurd heq (indentJump_not_mem_errorChecks hcheck expected got)
  | _ => exact Bool.false_ne_true

/-- A line is reported as too deep if the check of levels says so. -/
theorem any_isJump_jump? (opened : List Nat) (line : SlimLine) :
    ((jump? opened line).toList.map (.inLine line.number)).any Finding.isJump = false ↔
      line.level ≤ allowedLevel opened := by
  rw [← jump?_eq_none_iff, jump?]
  split <;> simp [Finding.isJump]

/-- No line is too deep if the first one is not and none goes down more than one level. -/
theorem any_isJump_errorsFrom (options : ValidationOptions) (opened : List Nat)
    (lines : List SlimLine) :
    (errorsFrom options opened lines).any Finding.isJump = false ↔
      (∀ line, lines.head? = some line → line.level ≤ allowedLevel opened) ∧
        lines.IsChain fun line next => next.level ≤ line.level + 1 := by
  induction lines generalizing opened with
  | nil => simp [errorsFrom]
  | cons line lines ih =>
    rw [errorsFrom, List.any_append, List.any_append, Bool.or_eq_false_iff, Bool.or_eq_false_iff,
      any_isJump_findings, any_isJump_jump?, ih, allowedLevel_openLevels, List.isChain_cons]
    simp

/-- No line is reported as too deep exactly if the lines start at the margin and none goes down more
than one level. -/
theorem hasJump_validate_eq_false_iff (options : ValidationOptions) (source : Text) :
    (validate options source).hasJump = false ↔
      (∀ line, (SlimLine.ofSource options.layout source).head? = some line → line.level = 0) ∧
        (SlimLine.ofSource options.layout source).IsChain
          fun line next => next.level ≤ line.level + 1 := by
  rw [Report.hasJump, validate]
  simp only [errors, any_isJump_errorsFrom, allowedLevel, Nat.le_zero]

end Validation

end SlimTemplate
