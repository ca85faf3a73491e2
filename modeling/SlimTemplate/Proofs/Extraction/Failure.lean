import SlimTemplate.Proofs.Extraction.Extract
import SlimTemplate.Session

/-!
# When an extraction fails

An extraction can fail in three ways, and they are looked for in a fixed order: conflicting
options, a source without lines, a selector that cannot be read. A selector is read only where it
is what lines are chosen by, so under an outline it does no harm. Otherwise the extraction
succeeds, and its summary tells the first way to choose that was asked for.

## Main definitions

* `ExtractionOptions.IsConflicting`: more ways to choose than allowed.
* `Extraction.IsBlank`: a source without lines.
* `ExtractionOptions.HasBadSelector`: a selector that is needed and denotes nothing.
* `ExtractionOptions.summary`: what an extraction that succeeds has done.

## Main statements

* `extract_eq_iff`: what an extraction gives, and what its outcome holds.
-/

namespace SlimTemplate

open Extraction

variable {options : ExtractionOptions} {source : Text} {e : SelectorError}

namespace ExtractionOptions

/-- Names to keep or to remove are given, whatever is left of them. -/
def GivesNames (options : ExtractionOptions) : Prop :=
  options.keep ≠ [] ∨ options.remove ≠ []

/-- At least two of the three ways to choose are asked for, and that is an error. -/
def IsConflicting (options : ExtractionOptions) : Prop :=
  options.rejectConflicts = true ∧
    (options.outline.isSome = true ∧ options.selector.isSome = true ∨
      options.outline.isSome = true ∧ options.GivesNames ∨
      options.selector.isSome = true ∧ options.GivesNames)

/-- Without an outline lines are chosen by a selector, and its text denotes none. -/
def HasBadSelector (options : ExtractionOptions) (e : SelectorError) : Prop :=
  options.outline = none ∧ ∃ text, options.selector = some text ∧ Selector.parse text = .error e

/-- What an extraction that succeeds has done. Of names to keep and names to remove at least one
kind is left, or the default names are removed. -/
def summary (options : ExtractionOptions) : Summary :=
  match options.outline, options.selector with
  | some depth, _ => .outline depth
  | none, some text => .selector text
  | none, none =>
    if (splitNames options.keep).isEmpty then .sections (removedNames options) none
    else .sections (splitNames options.remove) (some (splitNames options.keep))

theorem HasBadSelector.iff_eq {e' : SelectorError} (h : options.HasBadSelector e) :
    options.HasBadSelector e' ↔ e' = e := by
  constructor
  · obtain ⟨-, text, hselector, hparse⟩ := h
    rintro ⟨-, text', hselector', hparse'⟩
    obtain rfl : text = text' := Option.some.inj (hselector.symm.trans hselector')
    exact Except.error.inj (hparse'.symm.trans hparse)
  · rintro rfl
    exact h

end ExtractionOptions

namespace Extraction

/-- Every line of a source is blank. -/
def IsBlank (source : Text) : Prop :=
  ∀ text ∈ Text.lines source, Text.trim text = []

/-- The way to choose that a summary tells. -/
def Summary.mode : Summary → ExtractionMode
  | outline _ => .outline
  | selector _ => .selector
  | sections _ _ => .sections

/-! ## Conditions on options -/

theorem one_lt_length_modes_iff : 1 < options.modes.length ↔
    options.outline.isSome = true ∧ options.selector.isSome = true ∨
      options.outline.isSome = true ∧ options.GivesNames ∨
      options.selector.isSome = true ∧ options.GivesNames := by
  have hnames : (options.keep.isEmpty && options.remove.isEmpty) = true ↔ ¬options.GivesNames := by
    simp [ExtractionOptions.GivesNames]
  rw [ExtractionOptions.modes]
  by_cases houtline : options.outline.isSome <;> by_cases hselector : options.selector.isSome <;>
    by_cases hgives : options.GivesNames <;> simp [houtline, hselector, hnames, hgives]

theorem isConflicting_iff :
    (options.rejectConflicts && decide (1 < options.modes.length)) = true ↔
      options.IsConflicting := by
  rw [Bool.and_eq_true, decide_eq_true_eq, one_lt_length_modes_iff, ExtractionOptions.IsConflicting]

/-- The summary tells the first way to choose that is asked for, and names if none is. -/
theorem mode_summary (options : ExtractionOptions) :
    options.summary.mode = options.modes.head?.getD .sections := by
  rw [ExtractionOptions.summary, ExtractionOptions.modes]
  cases options.outline with
  | some depth => rfl
  | none =>
    cases options.selector with
    | some text => rfl
    | none =>
      have hleft : ∀ removed kept, (Summary.sections removed kept).mode = .sections :=
        fun _ _ => rfl
      by_cases hgives : (options.keep.isEmpty && options.remove.isEmpty) = true <;>
        by_cases hkeep : (splitNames options.keep).isEmpty = true <;>
          simp [hgives, hkeep, hleft]

theorem bySections_snd (tree : LineTree) :
    (bySections options tree).2 =
      if (splitNames options.keep).isEmpty then .sections (removedNames options) none
      else .sections (splitNames options.remove) (some (splitNames options.keep)) := by
  by_cases hkeep : (splitNames options.keep).isEmpty = true
  · simp [bySections, removedNames, hkeep]
  · simp [bySections, hkeep]

/-! ## The ways to end -/

theorem extract_of_isConflicting (h : options.IsConflicting) :
    extract options source = .error (.conflict options.modes) := by
  simp only [extract, isConflicting_iff.2 h, if_true]

theorem extract_of_isBlank (h : ¬options.IsConflicting) (hblank : IsBlank source) :
    extract options source = .error .noContent := by
  have hlines : (LineTree.ofSource options.layout source).lines.isEmpty = true :=
    List.isEmpty_iff.2 (SlimLine.ofSource_eq_nil_iff.2 hblank)
  simp only [extract, if_neg (mt isConflicting_iff.1 h), hlines, if_true]

theorem extract_of_not_isBlank (h : ¬options.IsConflicting) (hvisible : ¬IsBlank source) :
    extract options source =
      (choose options (.ofSource options.layout source)).map fun (lines, summary) =>
        ⟨SlimLine.render options.layout (cleanUp options lines) ++ ['\n'], summary⟩ := by
  have hlines : ¬(LineTree.ofSource options.layout source).lines.isEmpty = true :=
    fun hempty => hvisible (SlimLine.ofSource_eq_nil_iff.1 (List.isEmpty_iff.1 hempty))
  simp only [extract, if_neg (mt isConflicting_iff.1 h), if_neg hlines]

theorem choose_of_hasBadSelector (hbad : options.HasBadSelector e) (tree : LineTree) :
    choose options tree = .error (.badSelector e) := by
  obtain ⟨houtline, text, hselector, hparse⟩ := hbad
  rw [choose, houtline, hselector]
  simp only [hparse]

/-- Without a bad selector lines are chosen, in the way that the summary tells. -/
theorem exists_choose (hgood : ∀ e, ¬options.HasBadSelector e) (tree : LineTree) :
    ∃ lines, choose options tree = .ok (lines, options.summary) := by
  rw [choose, ExtractionOptions.summary]
  cases houtline : options.outline with
  | some depth => exact ⟨_, rfl⟩
  | none =>
    cases hselector : options.selector with
    | some text =>
      cases hparse : Selector.parse text with
      | ok selector =>
        refine ⟨select selector tree, ?_⟩
        simp only [hparse]
      | error e => exact absurd ⟨houtline, text, hselector, hparse⟩ (hgood e)
    | none => exact ⟨_, congrArg Except.ok (Prod.ext rfl (bySections_snd tree))⟩

theorem extract_of_hasBadSelector (h : ¬options.IsConflicting) (hvisible : ¬IsBlank source)
    (hbad : options.HasBadSelector e) : extract options source = .error (.badSelector e) := by
  rw [extract_of_not_isBlank h hvisible, choose_of_hasBadSelector hbad]
  rfl

theorem exists_extract_eq_ok (h : ¬options.IsConflicting) (hvisible : ¬IsBlank source)
    (hgood : ∀ e, ¬options.HasBadSelector e) :
    ∃ content, extract options source = .ok ⟨content, options.summary⟩ := by
  obtain ⟨lines, hchoose⟩ := exists_choose hgood (.ofSource options.layout source)
  rw [extract_of_not_isBlank h hvisible, hchoose]
  exact ⟨_, rfl⟩

/-- Every extraction ends in one of four ways, of which the first that applies is taken. -/
theorem extract_cases (options : ExtractionOptions) (source : Text) :
    (options.IsConflicting ∧ extract options source = .error (.conflict options.modes)) ∨
    (¬options.IsConflicting ∧ IsBlank source ∧ extract options source = .error .noContent) ∨
    (¬options.IsConflicting ∧ ¬IsBlank source ∧ ∃ e, options.HasBadSelector e ∧
      extract options source = .error (.badSelector e)) ∨
    (¬options.IsConflicting ∧ ¬IsBlank source ∧ (∀ e, ¬options.HasBadSelector e) ∧
      ∃ content, extract options source = .ok ⟨content, options.summary⟩) := by
  by_cases hconflict : options.IsConflicting
  · exact Or.inl ⟨hconflict, extract_of_isConflicting hconflict⟩
  by_cases hblank : IsBlank source
  · exact Or.inr (Or.inl ⟨hconflict, hblank, extract_of_isBlank hconflict hblank⟩)
  by_cases hbad : ∃ e, options.HasBadSelector e
  · obtain ⟨e, hbad⟩ := hbad
    exact Or.inr (Or.inr (Or.inl
      ⟨hconflict, hblank, e, hbad, extract_of_hasBadSelector hconflict hblank hbad⟩))
  · have hgood := not_exists.1 hbad
    exact Or.inr (Or.inr (Or.inr
      ⟨hconflict, hblank, hgood, exists_extract_eq_ok hconflict hblank hgood⟩))

theorem extract_eq_conflict_iff {modes : List ExtractionMode} :
    extract options source = .error (.conflict modes) ↔
      options.IsConflicting ∧ modes = options.modes := by
  rcases extract_cases options source with ⟨hconflict, hend⟩ | ⟨hconflict, -, hend⟩ |
    ⟨hconflict, -, e, -, hend⟩ | ⟨hconflict, -, -, content, hend⟩
  · simp [hend, hconflict, eq_comm]
  all_goals simp [hend, hconflict]

theorem extract_eq_noContent_iff : extract options source = .error .noContent ↔
    ¬options.IsConflicting ∧ IsBlank source := by
  rcases extract_cases options source with ⟨hconflict, hend⟩ | ⟨hconflict, hblank, hend⟩ |
    ⟨hconflict, hblank, e, -, hend⟩ | ⟨hconflict, hblank, -, content, hend⟩
  · simp [hend, hconflict]
  all_goals simp [hend, hconflict, hblank]

theorem extract_eq_badSelector_iff : extract options source = .error (.badSelector e) ↔
    ¬options.IsConflicting ∧ ¬IsBlank source ∧ options.HasBadSelector e := by
  rcases extract_cases options source with ⟨hconflict, hend⟩ | ⟨hconflict, hblank, hend⟩ |
    ⟨hconflict, hblank, e', hbad, hend⟩ | ⟨hconflict, hblank, hgood, content, hend⟩
  · simp [hend, hconflict]
  · simp [hend, hblank]
  · rw [hend, and_iff_right hconflict, and_iff_right hblank, hbad.iff_eq, eq_comm]
    simp
  · simp [hend, hgood]

theorem exists_extract_eq_ok_iff :
    (∃ content, extract options source = .ok ⟨content, options.summary⟩) ↔
      ¬options.IsConflicting ∧ ¬IsBlank source ∧ ∀ e, ¬options.HasBadSelector e := by
  rcases extract_cases options source with ⟨hconflict, hend⟩ | ⟨hconflict, hblank, hend⟩ |
    ⟨hconflict, hblank, e, hbad, hend⟩ | ⟨hconflict, hblank, hgood, content, hend⟩
  · simp [hend, hconflict]
  · simp [hend, hblank]
  · rw [hend]
    exact iff_of_false (fun ⟨_, h⟩ => by cases h) fun h => h.2.2 e hbad
  · exact iff_of_true ⟨content, hend⟩ ⟨hconflict, hblank, hgood⟩

/-! ## Outcomes and requests -/

theorem success_outcome_iff :
    (outcome options source).success = true ↔ ∃ part, extract options source = .ok part := by
  rw [outcome]
  cases extract options source <;> simp [Outcome.ofExcept, Outcome.ok, Outcome.failed]

theorem value_outcome_iff {part : Extract} :
    (outcome options source).value = some part ↔ extract options source = .ok part := by
  rw [outcome]
  cases extract options source <;> simp [Outcome.ofExcept, Outcome.ok, Outcome.failed]

theorem error_outcome_iff {message : Text} :
    (outcome options source).error = some message ↔
      ∃ e, extract options source = .error e ∧ message = e.message := by
  rw [outcome]
  cases extract options source <;>
    simp [Outcome.ofExcept, Outcome.ok, Outcome.failed, eq_comm]

/-- A request asks for one way to choose at most. -/
theorem not_isConflicting_apply (request : ExtractionRequest) (settings : Settings) :
    ¬(request.apply settings.extractionOptions).IsConflicting := by
  rintro ⟨-, htwo⟩
  cases request <;>
    simp [ExtractionRequest.apply, Settings.extractionOptions, ExtractionOptions.standard,
      ExtractionOptions.GivesNames] at htwo

end Extraction

/-- An extraction fails because of conflicting options, else because there are no lines, else
because of a selector that is needed and cannot be read; else it succeeds with the summary of the
first way to choose that is asked for. Its outcome is a success exactly if it succeeds, and holds
the wording of its error otherwise. Tools ask for one way to choose at a time, so their settings
never make an extraction fail for conflicting options. -/
theorem extract_eq_iff (options : ExtractionOptions) (source : Text) :
    (∀ modes, extract options source = .error (.conflict modes) ↔
      options.IsConflicting ∧ modes = options.modes) ∧
    (extract options source = .error .noContent ↔ ¬options.IsConflicting ∧ IsBlank source) ∧
    (∀ e, extract options source = .error (.badSelector e) ↔
      ¬options.IsConflicting ∧ ¬IsBlank source ∧ options.HasBadSelector e) ∧
    ((∃ content, extract options source = .ok ⟨content, options.summary⟩) ↔
      ¬options.IsConflicting ∧ ¬IsBlank source ∧ ∀ e, ¬options.HasBadSelector e) ∧
    options.summary.mode = options.modes.head?.getD .sections ∧
    ((outcome options source).success = true ↔ ∃ part, extract options source = .ok part) ∧
    (∀ part, (outcome options source).value = some part ↔ extract options source = .ok part) ∧
    (∀ message, (outcome options source).error = some message ↔
      ∃ e, extract options source = .error e ∧ message = e.message) ∧
    ∀ (t : Tools) (request : ExtractionRequest) (modes : List ExtractionMode),
      t.extract request source ≠ .error (.conflict modes) :=
  ⟨fun _ => extract_eq_conflict_iff, extract_eq_noContent_iff, fun _ => extract_eq_badSelector_iff,
    exists_extract_eq_ok_iff, mode_summary options, success_outcome_iff,
    fun _ => value_outcome_iff, fun _ => error_outcome_iff,
    fun t request _ h =>
      not_isConflicting_apply request t.settings (extract_eq_conflict_iff.1 h).1⟩

end SlimTemplate
