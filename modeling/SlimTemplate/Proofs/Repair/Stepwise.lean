import SlimTemplate.Proofs.Repair.Written
import SlimTemplate.Proofs.Validation.Clean
import SlimTemplate.Proofs.Writer.Line

/-!
# Lines that go stepwise

A source is valid if each of its visible lines is clean and at most one level deeper than the one
before. Both can be told from the physical lines as a repair handles them, also where they have
been written out and are read again. The lines that a repair writes keep the level of their
source or stand one level below it.

## Main definitions

* `Repair.NumberedLine.level`, `Repair.firstLevel?`: the levels of lines.
* `Repair.IsStepwise`: the lines that validation accepts.

## Main statements

* `Repair.isValid_iff_of_spells`, `Repair.isValid_unlines_iff`: when lines are valid.
* `Repair.isStepwise_bare_cons`, `Repair.isStepwise_pipeLine_cons`: what the lines that a repair
  writes add to the lines behind them.
-/

namespace SlimTemplate.Repair

open Validation

variable {layout : Layout} {lines lines' : List NumberedLine} {line : NumberedLine}

/-! ## Lines that validation accepts -/

/-- The level of a line. -/
def NumberedLine.level (layout : Layout) (line : NumberedLine) : Nat :=
  line.margin.length / layout.width

/-- The level of the first line that is not blank. -/
def firstLevel? (layout : Layout) : List NumberedLine → Option Nat
  | [] => none
  | line :: lines =>
    if line.content = [] then firstLevel? layout lines else some (line.level layout)

/-- The lines that are not blank are clean and at most one level deeper than the one before. -/
def IsStepwise (layout : Layout) : List NumberedLine → Prop
  | [] => True
  | line :: lines =>
    (line.content ≠ [] → IsClean line.content ∧
      ∀ level ∈ firstLevel? layout lines, level ≤ line.level layout + 1) ∧
      IsStepwise layout lines

theorem firstLevel?_cons_of_ne_nil (h : line.content ≠ []) (lines : List NumberedLine) :
    firstLevel? layout (line :: lines) = some (line.level layout) := by
  rw [firstLevel?, if_neg h]

theorem isStepwise_cons_of_ne_nil (h : line.content ≠ []) :
    IsStepwise layout (line :: lines) ↔
      (IsClean line.content ∧ ∀ level ∈ firstLevel? layout lines, level ≤ line.level layout + 1) ∧
        IsStepwise layout lines := by
  rw [IsStepwise]
  exact and_congr_left fun _ => ⟨fun hline => hline h, fun hline _ => hline⟩

theorem IsStepwise.isClean (h : IsStepwise layout lines) (hline : line ∈ lines)
    (hne : line.content ≠ []) : IsClean line.content := by
  induction lines with
  | nil => cases hline
  | cons first lines ih =>
    rcases List.mem_cons.1 hline with rfl | hline
    · exact (h.1 hne).1
    · exact ih h.2 hline

/-- Lines that are read from texts as validation reads them. -/
def Spells (text : Text) (line : NumberedLine) : Prop :=
  Text.trim text = line.content ∧ spacesBefore text = line.margin.length

/-- Validation finds no error in texts exactly if their lines go stepwise. -/
theorem errorsFrom_readAll_eq_nil_iff {options : ValidationOptions}
    (hstrict : options.strict = false) {texts : List Text} (h : List.Forall₂ Spells texts lines)
    (number : Nat) (opened : List Nat) :
    errorsFrom options opened (SlimLine.readAll layout number texts) = [] ↔
      (∀ level ∈ firstLevel? layout lines, level ≤ allowedLevel opened) ∧
        IsStepwise layout lines := by
  induction h generalizing number opened with
  | nil => simp [SlimLine.readAll, errorsFrom, firstLevel?, IsStepwise]
  | @cons text line texts lines hline _ ih =>
    obtain ⟨hcontent, hmargin⟩ := hline
    by_cases hne : line.content = []
    · have hread : SlimLine.readAll layout number (text :: texts) =
          SlimLine.readAll layout (number + 1) texts := by
        simp [SlimLine.readAll, SlimLine.read?, hcontent, hne]
      rw [hread, ih, firstLevel?, if_pos hne, IsStepwise, and_iff_right fun h => absurd hne h]
    · have hread : SlimLine.readAll layout number (text :: texts) =
          ⟨text, line.content, line.level layout, number, LineKind.of line.content⟩ ::
            SlimLine.readAll layout (number + 1) texts := by
        simp [SlimLine.readAll, SlimLine.read?, hcontent, hne, hmargin, NumberedLine.level]
      rw [hread, errorsFrom_cons_eq_nil_iff hstrict, ih, allowedLevel_openLevels,
        firstLevel?_cons_of_ne_nil hne, isStepwise_cons_of_ne_nil hne]
      simp only [Option.mem_def, Option.some.injEq, forall_eq']
      constructor
      · rintro ⟨⟨hlevel, hclean⟩, hnext, hrest⟩
        exact ⟨hlevel, ⟨hclean, hnext⟩, hrest⟩
      · rintro ⟨hlevel, ⟨hclean, hnext⟩, hrest⟩
        exact ⟨⟨hlevel, hclean⟩, hnext, hrest⟩

/-- The standard checks with a layout. -/
def checksWith (layout : Layout) : ValidationOptions :=
  { ValidationOptions.standard with layout }

theorem isValid_iff_of_spells {source : Text} (h : List.Forall₂ Spells (Text.lines source) lines) :
    (validate (checksWith layout) source).isValid = true ↔
      (∀ level ∈ firstLevel? layout lines, level ≤ 0) ∧ IsStepwise layout lines := by
  rw [Report.isValid, List.isEmpty_iff]
  exact errorsFrom_readAll_eq_nil_iff rfl h 1 []

theorem spells_numberFrom (number : Nat) (texts : List Text) :
    List.Forall₂ Spells texts (numberFrom number texts) := by
  induction texts generalizing number with
  | nil => exact List.Forall₂.nil
  | cons text texts ih => exact List.Forall₂.cons ⟨rfl, rfl⟩ (ih (number + 1))

theorem spells_dropFinalReturn (lines : List NumberedLine) :
    List.Forall₂ Spells ((lines.map (·.text)).map Text.dropFinalReturn) lines := by
  induction lines with
  | nil => exact List.Forall₂.nil
  | cons line lines ih =>
    exact List.Forall₂.cons
      ⟨Text.trim_dropFinalReturn line.text, spacesBefore_dropFinalReturn line.text⟩ ih

/-- Lines that are written out are valid exactly if they go stepwise from the margin on. -/
theorem isValid_unlines_iff (h : ∀ line ∈ lines, '\n' ∉ line.text) :
    (validate (checksWith layout) (unlines lines)).isValid = true ↔
      (∀ level ∈ firstLevel? layout lines, level ≤ 0) ∧ IsStepwise layout lines := by
  cases lines with
  | nil => exact iff_of_true rfl ⟨fun _ hlevel => absurd hlevel (by simp [firstLevel?]), trivial⟩
  | cons line lines =>
    apply isValid_iff_of_spells
    rw [unlines, Text.lines_unlines (by simp) (List.forall_mem_map.2 h)]
    exact spells_dropFinalReturn _

/-! ## Lines that a repair writes -/

theorem content_ne_nil_of_headAndText? {head text : Text}
    (h : headAndText? line.content = some (head, text)) : line.content ≠ [] := by
  intro hnil
  rw [hnil] at h
  cases h

theorem content_ne_nil_of_head? {c : Char} (h : line.content.head? = some c) :
    line.content ≠ [] := by
  intro hnil
  rw [hnil] at h
  cases h

/-- The bare head of a clean line is clean. -/
theorem isClean_head {content head text : Text} (h : headAndText? content = some (head, text))
    (hclean : IsClean content) : IsClean head := by
  obtain ⟨d, after, hcons, hd⟩ := head_eq_cons h
  obtain ⟨c, rest, hcontent, -⟩ := eq_append_of_headAndText? h
  obtain ⟨scanned, b, more, hscan, hhead, hremainder, -⟩ := headAndText?_eq_some h
  have hne : ∀ e : Char, e.isAlpha = false → e ≠ '#' → e ≠ '.' → head.head? ≠ some e := by
    intro e halpha hid hclass hsome
    rw [hcons, List.head?_cons, Option.some.injEq] at hsome
    subst hsome
    rcases hd with hd | hd | hd
    · exact Bool.false_ne_true (halpha.symm.trans hd)
    · exact hid hd
    · exact hclass hd
  refine ⟨leadingSlash_of_head?_ne (hne _ (by decide) (by decide) (by decide)), ?_,
    brackets_eq_none_iff.2 ?_, missingCode_of_head?_ne (hne _ (by decide) (by decide) (by decide))
      (hne _ (by decide) (by decide) (by decide))⟩
  · exact slashBehindHead_of_append (hcontent ▸ hclean.slashBehindHead)
  · rw [← hhead]
    exact Head.bracket_mem_text_iff hscan (by simp [hremainder])

/-- Text behind a bar is clean if its brackets are in pairs. -/
theorem isClean_pipeLine_iff {number : Nat} {indent text : Text} (h : ∀ c ∈ indent, c = ' ') :
    IsClean (pipeLine number indent text).content ↔ HasBracketPair text := by
  rw [isClean_of_bar (head?_content_pipeLine h text), HasBracketPair, HasBracketPair,
    NumberedLine.content, Text.mem_trim_iff (by decide), Text.mem_trim_iff (by decide), pipeLine]
  have hindent : ∀ c : Char, c ≠ ' ' → c ≠ '|' →
      (c ∈ indent ++ "| ".toList ++ text ↔ c ∈ text) := by
    intro c hspace hbar
    have hnot : c ∉ indent := fun hmem => hspace (h c hmem)
    simp [hnot, hspace, hbar]
  rw [hindent _ (by decide) (by decide), hindent _ (by decide) (by decide)]

theorem content_pipeLine_ne_nil {number : Nat} {indent : Text} (h : ∀ c ∈ indent, c = ' ')
    (text : Text) : (pipeLine number indent text).content ≠ [] := by
  intro hnil
  have hhead : (pipeLine number indent text).content.head? = some '|' := head?_content_pipeLine h text
  rw [hnil] at hhead
  cases hhead

theorem margin_pipeLine {number : Nat} {indent : Text} (h : ∀ c ∈ indent, c = ' ') (text : Text) :
    (pipeLine number indent text).margin = indent := by
  have hspaces : ∀ c ∈ indent, decide (c = ' ') = true := fun c hc => by simpa using h c hc
  rw [NumberedLine.margin, pipeLine, List.append_assoc, List.takeWhile_append_of_pos hspaces]
  simp

theorem level_pipeLine (layout : Layout) (number : Nat) (line : NumberedLine) (text : Text) :
    (pipeLine number (line.margin ++ layout.indent 1) text).level layout =
      line.level layout + 1 := by
  rw [NumberedLine.level, margin_pipeLine (fun _ => eq_space_of_mem_margin_indent),
    NumberedLine.level, List.length_append, ← Nat.add_div_right _ layout.width_pos]
  simp [Layout.indent, Text.spaces]

theorem isStepwise_pipeLine_cons {number : Nat} {indent text : Text}
    (h : ∀ c ∈ indent, c = ' ') : IsStepwise layout (pipeLine number indent text :: lines) ↔
      (HasBracketPair text ∧ ∀ level ∈ firstLevel? layout lines,
        level ≤ (pipeLine number indent text).level layout + 1) ∧ IsStepwise layout lines := by
  rw [isStepwise_cons_of_ne_nil (content_pipeLine_ne_nil h text), isClean_pipeLine_iff h]

section Bare

variable {number : Nat} {head text : Text} (h : headAndText? line.content = some (head, text))
include h

theorem content_bare_ne_nil : (NumberedLine.mk number (line.margin ++ head)).content ≠ [] := by
  obtain ⟨d, after, hcons, -⟩ := head_eq_cons h
  rw [content_bare h, hcons]
  exact List.cons_ne_nil d after

theorem level_bare :
    (NumberedLine.mk number (line.margin ++ head)).level layout = line.level layout := by
  rw [NumberedLine.level, margin_bare h, NumberedLine.level]

theorem firstLevel?_bare_cons :
    firstLevel? layout (NumberedLine.mk number (line.margin ++ head) :: lines) =
      firstLevel? layout (line :: lines') := by
  rw [firstLevel?_cons_of_ne_nil (content_bare_ne_nil h), level_bare h,
    firstLevel?_cons_of_ne_nil (content_ne_nil_of_headAndText? h)]

theorem isStepwise_bare_cons (hclean : IsClean line.content) :
    IsStepwise layout (NumberedLine.mk number (line.margin ++ head) :: lines) ↔
      (∀ level ∈ firstLevel? layout lines, level ≤ line.level layout + 1) ∧
        IsStepwise layout lines := by
  rw [isStepwise_cons_of_ne_nil (content_bare_ne_nil h), content_bare h, level_bare h,
    and_iff_right (isClean_head h hclean)]

end Bare

end SlimTemplate.Repair
