import SlimTemplate.Proofs.Text.Blank
import SlimTemplate.Validation.Basic

/-!
# Lines without errors

Apart from tabs, the checks for errors look at the content of a line alone. The check of levels
looks at the innermost open level, which is always that of the line before. So a source is valid
if each of its lines is clean and at most one level deeper than the one before.

## Main definitions

* `Validation.HasBracketPair`: a text with brackets of both kinds or of none.
* `Validation.IsClean`: a content in which no check finds an error.

## Main statements

* `Validation.errorsFrom_cons_eq_nil_iff`: when a line has no errors.
* `Validation.isClean_of_bar`: text behind a bar is clean if its brackets are in pairs.
-/

namespace SlimTemplate.Validation

open Check

variable {content : Text} {options : ValidationOptions} {line : SlimLine}

/-- A text has brackets of both kinds or of none. -/
def HasBracketPair (text : Text) : Prop :=
  '[' ∈ text ↔ ']' ∈ text

/-- A line of which nothing but the content is known. -/
def bareLine (content : Text) : SlimLine :=
  ⟨content, content, 0, 0, .plain⟩

/-- No check finds an error in a line with that content, tabs apart. -/
structure IsClean (content : Text) : Prop where
  leadingSlash : Check.leadingSlash .standard (bareLine content) = none
  slashBehindHead : Check.slashBehindHead .standard (bareLine content) = none
  brackets : Check.brackets .standard (bareLine content) = none
  missingCode : Check.missingCode .standard (bareLine content) = none

theorem findings_eq_nil_iff (hstrict : options.strict = false) :
    findings errorChecks options line = [] ↔ IsClean line.content := by
  have htab : strictTab options line = none := by
    rw [strictTab, hstrict]
    rfl
  have hchecks : findings errorChecks options line = [] ↔
      Check.leadingSlash .standard (bareLine line.content) = none ∧
      Check.slashBehindHead .standard (bareLine line.content) = none ∧
      Check.brackets .standard (bareLine line.content) = none ∧
      Check.missingCode .standard (bareLine line.content) = none := by
    rw [findings, List.map_eq_nil_iff, List.filterMap_eq_nil_iff]
    simp only [errorChecks, List.forall_mem_cons, htab, List.not_mem_nil, false_implies,
      implies_true, and_true]
    rfl
  rw [hchecks]
  constructor
  · rintro ⟨hleading, hbehind, hbrackets, hcode⟩
    exact ⟨hleading, hbehind, hbrackets, hcode⟩
  · rintro ⟨hleading, hbehind, hbrackets, hcode⟩
    exact ⟨hleading, hbehind, hbrackets, hcode⟩

/-! ## Levels -/

/-- The innermost open level is that of the last line. -/
theorem allowedLevel_openLevels (level : Nat) (opened : List Nat) :
    allowedLevel (openLevels level opened) = level + 1 := by
  rw [openLevels]
  cases h : opened.dropWhile (level < ·) with
  | nil => rfl
  | cons top rest =>
    have htop := List.head?_dropWhile_not (level < ·) opened
    rw [h] at htop
    have hle : top ≤ level := by simpa using htop
    by_cases hlt : top < level
    · simp only [if_pos hlt]
      rfl
    · simp only [if_neg hlt, allowedLevel]
      omega

theorem jump?_eq_none_iff {opened : List Nat} :
    jump? opened line = none ↔ line.level ≤ allowedLevel opened := by
  rw [jump?]
  split <;> simp <;> omega

/-- A line has no errors if it is not too deep and clean, and those after it have none. -/
theorem errorsFrom_cons_eq_nil_iff (hstrict : options.strict = false) {opened : List Nat}
    {lines : List SlimLine} : errorsFrom options opened (line :: lines) = [] ↔
      (line.level ≤ allowedLevel opened ∧ IsClean line.content) ∧
        errorsFrom options (openLevels line.level opened) lines = [] := by
  rw [errorsFrom, List.append_eq_nil_iff, List.append_eq_nil_iff, findings_eq_nil_iff hstrict,
    List.map_eq_nil_iff, Option.toList_eq_nil_iff, jump?_eq_none_iff]

/-! ## Contents without errors -/

theorem brackets_eq_none_iff :
    Check.brackets .standard (bareLine content) = none ↔ HasBracketPair content := by
  have hcontains : ∀ c : Char, content.contains c = decide (c ∈ content) := fun c => by simp
  rw [Check.brackets, HasBracketPair]
  simp only [bareLine, hcontains]
  by_cases hopen : '[' ∈ content <;> by_cases hclose : ']' ∈ content <;> simp [hopen, hclose]

theorem leadingSlash_of_head?_ne (h : content.head? ≠ some '/') :
    Check.leadingSlash .standard (bareLine content) = none := by
  rw [Check.leadingSlash]
  split
  · next rest hcontent =>
    rw [show content = '/' :: rest from hcontent] at h
    exact absurd rfl h
  · rfl

theorem missingCode_of_head?_ne (houtput : content.head? ≠ some '=')
    (hcode : content.head? ≠ some '-') :
    Check.missingCode .standard (bareLine content) = none := by
  cases content with
  | nil => rfl
  | cons c rest =>
    rw [List.head?_cons, ne_eq, Option.some.injEq] at houtput hcode
    simp [Check.missingCode, bareLine, Check.when, houtput, hcode]

theorem dropWhile_append_of_ne_nil {p : Char → Bool} (h : content.dropWhile p ≠ [])
    (more : Text) : (content ++ more).dropWhile p = content.dropWhile p ++ more := by
  rw [List.dropWhile_append, if_neg (by simpa using h)]

theorem takeWhile_append_of_dropWhile_ne_nil {p : Char → Bool} (h : content.dropWhile p ≠ [])
    (more : Text) : (content ++ more).takeWhile p = content.takeWhile p := by
  have hlength := congrArg List.length (List.takeWhile_append_dropWhile (p := p) (l := content))
  have hpos := List.length_pos_iff.2 h
  rw [List.length_append] at hlength
  rw [List.takeWhile_append, if_neg (by omega)]

/-- Text behind a head stands there with more after it as well. -/
theorem afterHead?_append {blanks text : Text} (h : afterHead? content = some (blanks, text))
    (hne : text ≠ []) (more : Text) : afterHead? (content ++ more) = some (blanks, text ++ more) := by
  cases content with
  | nil => cases h
  | cons c rest =>
    simp only [afterHead?] at h
    split at h
    · next hc =>
      obtain ⟨rfl, rfl⟩ := Prod.mk.inj (Option.some.inj h)
      have hrest : rest.dropWhile (fun c => !Text.isBlank c) ≠ [] := by
        intro hnil
        rw [hnil] at hne
        exact hne rfl
      simp only [List.cons_append, afterHead?, if_pos hc]
      rw [dropWhile_append_of_ne_nil hrest, takeWhile_append_of_dropWhile_ne_nil hne,
        dropWhile_append_of_ne_nil hne]
    · cases h

theorem slashBehindHead_of_append {more : Text}
    (h : Check.slashBehindHead .standard (bareLine (content ++ more)) = none) :
    Check.slashBehindHead .standard (bareLine content) = none := by
  rw [Check.slashBehindHead]
  split
  · next b blanks c text hbehind =>
    have hmore : afterHead? (content ++ more) = some (b :: blanks, '/' :: c :: (text ++ more)) :=
      afterHead?_append hbehind (by simp) more
    simpa only [Check.slashBehindHead, bareLine, hmore] using h
  · rfl

/-- Text behind a bar is clean if its brackets are in pairs. -/
theorem isClean_of_bar (hbar : content.head? = some '|') :
    IsClean content ↔ HasBracketPair content := by
  constructor
  · exact fun h => brackets_eq_none_iff.1 h.brackets
  · intro hpair
    obtain ⟨rest, rfl⟩ := List.head?_eq_some_iff.1 hbar
    refine ⟨leadingSlash_of_head?_ne (by simp), ?_, brackets_eq_none_iff.2 hpair,
      missingCode_of_head?_ne (by simp) (by simp)⟩
    have hletter : isLatinLetter '|' = false := by decide
    simp [Check.slashBehindHead, bareLine, afterHead?, hletter]

end SlimTemplate.Validation
