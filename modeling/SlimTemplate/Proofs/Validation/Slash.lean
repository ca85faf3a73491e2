import SlimTemplate.Proofs.Line.Kind
import SlimTemplate.Proofs.Line.Number
import SlimTemplate.Proofs.Line.Render
import SlimTemplate.Proofs.Repair.Sheltered
import SlimTemplate.Proofs.Repair.Tag
import SlimTemplate.Proofs.Validation.Clean

/-!
# Slashes that are reported and slashes that are repaired

Validation looks for a slash behind the first blanks of a line, a repair behind the head that it
has read. The two are the same place if the head holds no blank and a blank or nothing stands
behind it. A slash at the start of a line is judged alike by both, but for one before a bar, which
only a repair takes for text.

## Main definitions

* `Report.hasSlashError`: whether a slash is reported for a line.
* `Head.EndsAtBlank`: a line whose head ends at its first blank.

## Main statements

* `Validation.hasSlashError_validate_iff`: which lines a slash is reported for.
* `Repair.slash_mem_fixes_iff`: which lines a slash is repaired in.
* `Validation.hasSlashError_iff_slash_mem_fixes`: the two agree.
-/

namespace SlimTemplate

/-! ## Slashes that are reported -/

/-- Whether a finding says that a slash in the line of that number begins a comment. -/
def Finding.isSlashError (number : Nat) : Finding → Bool
  | .inLine n issue => n = number && Text.hasPrefix Issue.slashRemark issue.message
  | .unreadable _ => false

/-- Whether a slash that begins a comment is an error of the line of that number. -/
def Report.hasSlashError (report : Report) (number : Nat) : Bool :=
  report.errors.any (Finding.isSlashError number)

namespace Validation

variable {options : ValidationOptions} {line : SlimLine} {number : Nat}

/-- Whether a check for slashes finds one. -/
def findsSlash (options : ValidationOptions) (line : SlimLine) : Bool :=
  (Check.leadingSlash options line).isSome || (Check.slashBehindHead options line).isSome

theorem eq_of_when {condition : Bool} {issue found : Issue}
    (h : Check.when condition issue = some found) : found = issue := by
  rw [Check.when] at h
  split at h
  · exact (Option.some.inj h).symm
  · cases h

theorem isSome_when (condition : Bool) (issue : Issue) :
    (Check.when condition issue).isSome = condition := by
  cases condition <;> rfl

/-- The wording of a slash text begins with the remark. -/
theorem hasPrefix_slashRemark_slashText (content : Text) :
    Text.hasPrefix Issue.slashRemark (Issue.slashText content).message = true :=
  Text.hasPrefix_iff.2 ⟨" Use pipe notation for text: | ".toList ++ content,
    (List.append_assoc _ _ _).symm⟩

theorem hasPrefix_slashRemark_leadingSlash {issue : Issue}
    (h : Check.leadingSlash options line = some issue) :
    Text.hasPrefix Issue.slashRemark issue.message = true := by
  rw [Check.leadingSlash] at h
  split at h
  · rw [eq_of_when h]
    exact hasPrefix_slashRemark_slashText _
  · cases h

theorem hasPrefix_slashRemark_slashBehindHead {issue : Issue}
    (h : Check.slashBehindHead options line = some issue) :
    Text.hasPrefix Issue.slashRemark issue.message = true := by
  rw [Check.slashBehindHead] at h
  split at h
  · rw [eq_of_when h]
    rfl
  · cases h

/-- No other check for errors words an issue so. -/
theorem findsSlash_of_hasPrefix {check : Check.LineCheck} (hcheck : check ∈ Check.errorChecks)
    {issue : Issue} (h : check options line = some issue)
    (hbegins : Text.hasPrefix Issue.slashRemark issue.message = true) :
    findsSlash options line = true := by
  simp only [Check.errorChecks, List.mem_cons, List.not_mem_nil, or_false] at hcheck
  rcases hcheck with rfl | rfl | rfl | rfl | rfl
  · rw [findsSlash, h]
    rfl
  · rw [findsSlash, h]
    exact Bool.or_true _
  · -- The other three checks word their issues in another way.
    rw [Check.brackets] at h
    split at h
    · cases h
      cases hbegins
    · cases h
      cases hbegins
    · cases h
  · rw [Check.missingCode] at h
    split at h
    · rw [eq_of_when h] at hbegins
      cases hbegins
    · cases h
  · rw [eq_of_when h] at hbegins
    cases hbegins

/-- A check that finds something to be worded so is reported as a slash. -/
theorem any_isSlashError_of_isSome {check : Check.LineCheck} (hcheck : check ∈ Check.errorChecks)
    (hwording : ∀ issue, check options line = some issue →
      Text.hasPrefix Issue.slashRemark issue.message = true)
    (h : (check options line).isSome = true) :
    (Check.findings Check.errorChecks options line).any (Finding.isSlashError line.number) =
      true := by
  obtain ⟨issue, hissue⟩ := Option.isSome_iff_exists.1 h
  rw [Check.findings, List.any_map, List.any_eq_true]
  refine ⟨issue, List.mem_filterMap.2 ⟨check, hcheck, hissue⟩, ?_⟩
  exact Bool.and_eq_true_iff.2 ⟨decide_eq_true rfl, hwording issue hissue⟩

theorem any_isSlashError_findings :
    (Check.findings Check.errorChecks options line).any (Finding.isSlashError number) = true ↔
      line.number = number ∧ findsSlash options line = true := by
  constructor
  · intro herrors
    rw [Check.findings, List.any_map, List.any_eq_true] at herrors
    obtain ⟨issue, hissue, herror⟩ := herrors
    obtain ⟨check, hcheck, heq⟩ := List.mem_filterMap.1 hissue
    obtain ⟨hnumber, hbegins⟩ := Bool.and_eq_true_iff.1 herror
    exact ⟨of_decide_eq_true hnumber, findsSlash_of_hasPrefix hcheck heq hbegins⟩
  · rintro ⟨rfl, hfinds⟩
    rcases Bool.or_eq_true_iff.1 hfinds with hsome | hsome
    · exact any_isSlashError_of_isSome (by simp [Check.errorChecks])
        (fun _ => hasPrefix_slashRemark_leadingSlash) hsome
    · exact any_isSlashError_of_isSome (by simp [Check.errorChecks])
        (fun _ => hasPrefix_slashRemark_slashBehindHead) hsome

/-- The check of levels reports no slash. -/
theorem any_isSlashError_jump? (opened : List Nat) (line : SlimLine) :
    ((jump? opened line).toList.map (.inLine line.number)).any (Finding.isSlashError number) =
      false := by
  rw [jump?]
  split
  · exact Bool.or_eq_false_iff.2 ⟨Bool.and_false _, rfl⟩
  · rfl

theorem any_isSlashError_errorsFrom (opened : List Nat) (lines : List SlimLine) :
    (errorsFrom options opened lines).any (Finding.isSlashError number) = true ↔
      ∃ line ∈ lines, line.number = number ∧ findsSlash options line = true := by
  induction lines generalizing opened with
  | nil => simp [errorsFrom]
  | cons line lines ih =>
    rw [errorsFrom, List.any_append, List.any_append, any_isSlashError_jump?, Bool.false_or,
      Bool.or_eq_true_iff, any_isSlashError_findings, ih, List.exists_mem_cons_iff]

/-- A slash is reported for a line of a source exactly if a check finds one in that line. -/
theorem hasSlashError_validate_iff {source : Text}
    (h : line ∈ SlimLine.ofSource options.layout source) :
    (validate options source).hasSlashError line.number = true ↔
      findsSlash options line = true := by
  rw [Report.hasSlashError, validate, errors, any_isSlashError_errorsFrom]
  constructor
  · rintro ⟨other, hother, hnumber, hfinds⟩
    rwa [← SlimLine.eq_of_number_eq h hother hnumber]
  · exact fun hfinds => ⟨line, h, rfl, hfinds⟩

end Validation

/-! ## Slashes that are repaired -/

namespace Repair

variable {layout : Layout} {options : RepairOptions} {lines : List NumberedLine} {number : Nat}
  {content : Text}

/-- Whether a line is repaired because of a slash. -/
def hasSlash (content : Text) : Bool :=
  (slashBehindHead? content).isSome || isSlashText content

theorem slash_mem_pipeSlashes_iff : .slash number ∈ (pipeSlashes layout lines).2 ↔
    ∃ line ∈ lines, line.number = number ∧ hasSlash line.content = true := by
  induction lines with
  | nil => simp [pipeSlashes]
  | cons line lines ih =>
    have hline : pipeSlash? layout line = none ↔ hasSlash line.content = false := by
      rw [pipeSlash?_eq_none_iff, hasSlash, Bool.or_eq_false_iff, Option.isSome_eq_false_iff,
        Option.isNone_iff_eq_none]
    rw [pipeSlashes, List.exists_mem_cons_iff, ← ih]
    cases hrepaired : pipeSlash? layout line with
    | none =>
      rw [hline.1 hrepaired]
      simp
    | some repaired =>
      have hslash : hasSlash line.content = true := by
        rw [← Bool.not_eq_false, ← hline, hrepaired]
        simp
      rw [hslash, List.mem_cons, Fix.slash.injEq, eq_comm (a := number)]
      simp

theorem slash_not_mem_pipeMultiline :
    Fix.slash number ∉ (pipeMultiline layout lines).2 := by
  fun_induction pipeMultiline layout lines with
  | case1 => exact List.not_mem_nil
  | case2 line lines hnone rest fixes hrest ih =>
    rw [hrest] at ih
    exact ih
  | case3 line lines head text hsome below hbelow rest fixes hrest ih =>
    rw [hrest] at ih
    exact ih
  | case4 line lines head text hsome below hbelow indent rest fixes hrest ih =>
    rw [hrest] at ih
    exact List.not_mem_cons_of_ne_of_not_mem (by simp) ih

/-- A slash is repaired in a line of a source exactly if the line has one. -/
theorem slash_mem_fixes_iff {layout : Layout} {line : SlimLine} {source : Text}
    (hslashes : options.slashes = true) (h : line ∈ SlimLine.ofSource layout source) :
    .slash line.number ∈ (repair options source).fixes ↔ hasSlash line.content = true := by
  have hfixes : Fix.slash line.number ∈ (repair options source).fixes ↔
      .slash line.number ∈ (pipeSlashes options.layout (numberFrom 1 (Text.lines source))).2 := by
    rw [repair, hslashes]
    cases options.multiline with
    | true => simp [slash_not_mem_pipeMultiline]
    | false => simp
  -- Repairs see every line with its number, and validation the lines that are not blank.
  obtain ⟨i, text, htext, hread⟩ := SlimLine.mem_ofSource_iff.1 h
  have hnumbered : (numberFrom 1 (Text.lines source))[i]? = some ⟨1 + i, text⟩ := by
    rw [getElem?_numberFrom, htext, Option.map_some]
  rw [hfixes, slash_mem_pipeSlashes_iff, SlimLine.number_of_read? hread,
    SlimLine.content_of_read? hread]
  constructor
  · rintro ⟨numbered, hmem, hnumber, hslash⟩
    obtain ⟨j, hj⟩ := List.mem_iff_getElem?.1 hmem
    rw [getElem?_numberFrom] at hj
    obtain ⟨second, hsecond, rfl⟩ := Option.map_eq_some_iff.1 hj
    obtain rfl : j = i := by
      have hplace : 1 + j = 1 + i := hnumber
      omega
    obtain rfl := Option.some.inj (htext.symm.trans hsecond)
    exact hslash
  · exact fun hslash => ⟨_, List.mem_of_getElem? hnumbered, rfl, hslash⟩

end Repair

/-! ## The two readings of a line -/

/-- A line whose head ends at the first blank of the line, or with the line. -/
def Head.EndsAtBlank (content : Text) : Prop :=
  ∃ head, Head.scan? content = some head ∧ (∀ c ∈ head.text, Text.isBlank c = false) ∧
    ∀ c ∈ head.remainder.head?, Text.isBlank c = true

namespace Check

variable {options : ValidationOptions} {line : SlimLine} {content : Text}

/-- The text behind the first blanks of a line that begins as an element. -/
def textBehindBlanks (content : Text) : Text :=
  match afterHead? content with
  | some (_ :: _, text) => text
  | _ => []

theorem isSome_slashBehindHead (options : ValidationOptions) (line : SlimLine) :
    (slashBehindHead options line).isSome =
      (Repair.startsWithOneSlash (textBehindBlanks line.content) &&
        decide (textBehindBlanks line.content ≠ ['/'])) := by
  rw [slashBehindHead, textBehindBlanks]
  cases afterHead? line.content with
  | none => rfl
  | some behind =>
    obtain ⟨blanks, text⟩ := behind
    cases blanks with
    | nil => rfl
    | cons blank blanks =>
      dsimp only
      split
      · next c more heq =>
        cases heq
        rw [Validation.isSome_when, Repair.startsWithOneSlash_cons]
        simp
      · next hother =>
        cases text with
        | nil => rfl
        | cons c more =>
          rw [Repair.startsWithOneSlash_cons]
          by_cases hc : c = '/'
          · subst hc
            cases more with
            | nil => simp
            | cons d more => exact absurd rfl (hother _ _ _ _)
          · simp [hc]

/-- A slash at the start of a line is judged as by a repair, but for one before a bar. -/
theorem isSome_leadingSlash (options : ValidationOptions) (line : SlimLine) :
    (leadingSlash options line).isSome =
      (Repair.isSlashText line.content && !Text.hasPrefix "/|".toList line.content) := by
  rw [leadingSlash, Repair.isSlashText]
  split
  · next rest heq =>
    rw [heq, LineKind.isComment_cons, Validation.isSome_when]
    cases rest with
    | nil => rfl
    | cons c rest =>
      have hbar : Text.hasPrefix "/|".toList ('/' :: c :: rest) = decide (c = '|') := by
        rw [Bool.eq_iff_iff, Text.hasPrefix_iff, decide_eq_true_eq]
        exact ⟨fun h => by simpa [eq_comm] using h, fun h => by simp [h]⟩
      rw [hbar, List.head?_cons, List.head?_cons, Option.any_some, decide_eq_true rfl,
        decide_eq_true rfl, Bool.true_and, Bool.true_and]
      dsimp only
      cases decide (c = '!') <;> cases decide (c = '|') <;> cases Text.isBlank c <;> rfl
  · next hother =>
    have hhead : line.content.head? ≠ some '/' := by
      intro hhead
      obtain ⟨rest, hrest⟩ := List.head?_eq_some_iff.1 hhead
      exact hother rest hrest
    simp [hhead]

theorem afterHead?_append {c : Char} {head remainder : Text}
    (hc : (isLatinLetter c || c = '#' || c = '.') = true)
    (hhead : ∀ d ∈ head, Text.isBlank d = false)
    (hremainder : ∀ d ∈ remainder.head?, Text.isBlank d = true) :
    afterHead? (c :: head ++ remainder) =
      some (remainder.takeWhile Text.isBlank, remainder.dropWhile Text.isBlank) := by
  have hrest : (head ++ remainder).dropWhile (fun d => !Text.isBlank d) = remainder := by
    rw [List.dropWhile_append_of_pos fun d hd => by rw [hhead d hd]; rfl]
    cases remainder with
    | nil => rfl
    | cons d remainder =>
      rw [List.dropWhile_cons_of_neg]
      simp [hremainder d rfl]
  rw [List.cons_append, afterHead?, if_pos hc, hrest]

/-- Behind a head without a blank stands the text behind the first blanks. -/
theorem textBehindBlanks_of_scan? {head : Head} (hscan : Head.scan? content = some head)
    (hhead : ∀ c ∈ head.text, Text.isBlank c = false)
    (hremainder : ∀ c ∈ head.remainder.head?, Text.isBlank c = true) :
    textBehindBlanks content = Text.trimStart head.remainder := by
  obtain ⟨c, rest, rfl, hc⟩ := Head.scan?_eq_some hscan
  have happend := Head.text_append_remainder hscan
  have hsign : (isLatinLetter c || c = '#' || c = '.') = true := by
    rcases hc with hc | rfl | rfl
    · simp [isLatinLetter, hc]
    · decide
    · decide
  cases htext : head.text with
  | nil =>
    -- A head does not begin with a blank, so it is not empty.
    rw [htext, List.nil_append] at happend
    have hblank := hremainder c (by rw [happend]; rfl)
    obtain ⟨hid, hclass, -⟩ := Head.ne_sign_of_isBlank hblank
    rcases hc with hc | hc | hc
    · rw [Text.isBlank_eq_false_of_isAlpha hc] at hblank
      cases hblank
    · exact absurd hc hid
    · exact absurd hc hclass
  | cons d more =>
    rw [htext] at happend hhead
    obtain ⟨rfl, -⟩ := List.cons.inj happend
    rw [← happend, textBehindBlanks, afterHead?_append hsign
      (fun e he => hhead e (List.mem_cons_of_mem _ he)) hremainder]
    cases hrest : head.remainder with
    | nil => rfl
    | cons e remainder =>
      rw [List.takeWhile_cons_of_pos (hremainder e (by rw [hrest]; rfl)), Text.trimStart]

end Check

/-- A line in which validation and a repair look at the same text. -/
inductive IsPlainlyRead (content : Text) : Prop where
  /-- The head of an element ends at the first blank, and more than a slash stands behind it. -/
  | element (helement : (LineKind.of content).isElement = true)
      (hends : Head.EndsAtBlank content) (htext : Check.textBehindBlanks content ≠ ['/'])
  /-- No text that starts with one slash stands behind the first blanks or behind a head. -/
  | slashless (hblanks : Repair.startsWithOneSlash (Check.textBehindBlanks content) = false)
      (hhead : Repair.slashBehindHead? content = none)

/-- The text behind a head that ends at a blank is the text behind the first blanks. -/
theorem Head.EndsAtBlank.headAndText?_eq {content : Text} (h : Head.EndsAtBlank content)
    (helement : (LineKind.of content).isElement = true)
    (htrim : Text.trim content = content) :
    ∃ head, Repair.headAndText? content =
      if Check.textBehindBlanks content = [] then none
      else some (head, Check.textBehindBlanks content) := by
  obtain ⟨head, hscan, hhead, hremainder⟩ := h
  have happend := Head.text_append_remainder hscan
  have htext := Check.textBehindBlanks_of_scan? hscan hhead hremainder
  have hbehind : Text.trim head.remainder = Check.textBehindBlanks content := by
    rw [← happend] at htrim
    rw [Text.trim_eq_trimStart htrim, htext]
  refine ⟨head.text, ?_⟩
  rw [Repair.headAndText?, if_pos helement, hscan, Option.bind_some, Head.textBehind?]
  cases hrest : head.remainder with
  | nil =>
    rw [hrest] at hbehind
    rw [← hbehind]
    rfl
  | cons c rest =>
    have hc := hremainder c (by rw [hrest]; rfl)
    rw [hrest] at hbehind
    dsimp only
    rw [if_pos hc, hbehind]
    cases Check.textBehindBlanks content <;> rfl

namespace Validation

/-- A repair finds the slashes that validation finds, and one before a bar. -/
theorem findsSlash_eq {options : ValidationOptions} {line : SlimLine} (hread : line.IsRead)
    (h : IsPlainlyRead line.content) :
    findsSlash options line = (Repair.hasSlash line.content &&
      !Text.hasPrefix "/|".toList line.content) := by
  -- The two checks behind a head agree; those of the first slash are compared below.
  have hbehind : (Check.slashBehindHead options line).isSome =
      (Repair.slashBehindHead? line.content).isSome := by
    rw [Check.isSome_slashBehindHead]
    cases h with
    | element helement hends htext =>
      obtain ⟨head, hhead⟩ := hends.headAndText?_eq helement hread.trim_content
      rw [Repair.slashBehindHead?, hhead, decide_eq_true htext, Bool.and_true]
      by_cases hnil : Check.textBehindBlanks line.content = []
      · rw [if_pos hnil, hnil]
        rfl
      · rw [if_neg hnil, Option.isSome_filter, Option.any_some]
    | slashless hblanks hhead => rw [hblanks, hhead, Bool.false_and, Option.isSome_none]
  rw [findsSlash, Check.isSome_leadingSlash, hbehind, Repair.hasSlash]
  cases hbar : Text.hasPrefix "/|".toList line.content with
  | false => rw [Bool.not_false, Bool.and_true, Bool.and_true, Bool.or_comm]
  | true =>
    -- Such a line begins with a slash, so it has no head.
    obtain ⟨rest, hrest⟩ := Text.hasPrefix_iff.1 hbar
    have hhead : line.content.head? = some '/' := by
      rw [← hrest]
      rfl
    rw [Repair.slashBehindHead?_eq_none (Repair.headAndText?_eq_none_of_head? hhead (by decide)
      (by decide) (by decide)), Bool.not_true, Bool.and_false, Bool.and_false]
    rfl

/-- For a line in which both look at the same text, a slash is reported exactly if it is repaired,
but for a slash before a bar. -/
theorem hasSlashError_iff_slash_mem_fixes (options : ValidationOptions)
    (repairOptions : RepairOptions) (hslashes : repairOptions.slashes = true) {source : Text}
    {line : SlimLine} (hline : line ∈ SlimLine.ofSource options.layout source)
    (h : IsPlainlyRead line.content) :
    (validate options source).hasSlashError line.number = true ↔
      .slash line.number ∈ (repair repairOptions source).fixes ∧
        ¬"/|".toList <+: line.content := by
  rw [hasSlashError_validate_iff hline, Repair.slash_mem_fixes_iff hslashes hline,
    findsSlash_eq (SlimLine.isRead_of_mem_ofSource hline) h, Bool.and_eq_true_iff,
    Bool.not_eq_true', ← Text.hasPrefix_iff, Bool.not_eq_true]

/-- A price behind a class is reported and repaired. -/
theorem hasSlashError_iff_slash_mem_fixes_price :
    (validate .standard "span.price /month".toList).hasSlashError 1 = true := by
  have hline : ⟨"span.price /month".toList, "span.price /month".toList, 0, 1, .element⟩ ∈
      SlimLine.ofSource ValidationOptions.standard.layout "span.price /month".toList := by
    decide +kernel
  have hends : Head.EndsAtBlank "span.price /month".toList := by
    refine ⟨⟨some "span".toList, [⟨'.', "price".toList⟩], none, " /month".toList⟩,
      by decide +kernel, Text.isBlank_eq_false_of_all (by decide), ?_⟩
    intro c hc
    obtain rfl : ' ' = c := Option.some.inj hc
    decide
  have hread : IsPlainlyRead "span.price /month".toList :=
    .element (by decide) hends (by decide)
  exact (hasSlashError_iff_slash_mem_fixes .standard .standard rfl hline hread).2
    ⟨by decide +kernel, by decide⟩

/-- Of lines in which the two look at different text, some are only repaired and others only
reported. A slash before a bar is only repaired. -/
theorem hasSlashError_ne_slash_mem_fixes :
    (∀ source ∈ ["/| note", "p /", "a[title=\"b c\"] /d"],
      (validate .standard source.toList).hasSlashError 1 = false ∧
        .slash 1 ∈ (repair .standard source.toList).fixes) ∧
    ∀ source ∈ ["doctype /x", "a[title=\"b /c\"] d"],
      (validate .standard source.toList).hasSlashError 1 = true ∧
        .slash 1 ∉ (repair .standard source.toList).fixes := by
  decide +kernel

end Validation

end SlimTemplate
