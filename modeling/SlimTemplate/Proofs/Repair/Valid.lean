import SlimTemplate.Proofs.Repair.Idempotent
import SlimTemplate.Proofs.Repair.Stepwise

/-!
# Repairs of valid sources

Repairing slashes moves text to a line that is one level deeper, which may take brackets apart.
Repairing text over several lines brings all lines of a text to one level, so the line behind the
text may come to stand too deep. Nothing else can make a valid source invalid.

## Main definitions

* `Repair.MovesPairs`: no text that is moved has one kind of bracket alone.
* `Repair.folds`: the places where text over several lines is repaired.
* `Repair.Fold.IsSound`: a place where the repair leaves no error.

## Main statements

* `Repair.isStepwise_pipeSlashes_iff`, `Repair.isStepwise_pipeMultiline_iff`: when the repairs
  leave lines valid.
* `isValid_repair_iff`: when the repair of a valid source is valid.
-/

namespace SlimTemplate

namespace Repair

open Validation

variable {layout : Layout} {lines lines' : List NumberedLine} {line : NumberedLine}

/-! ## Text that starts with a slash -/

/-- Repairing slashes keeps the level of the first line. -/
theorem firstLevel?_pipeSlashes (layout : Layout) (lines : List NumberedLine) :
    firstLevel? layout (pipeSlashes layout lines).1 = firstLevel? layout lines := by
  induction lines with
  | nil => rfl
  | cons line lines ih =>
    rw [pipeSlashes]
    cases hrepaired : pipeSlash? layout line with
    | none =>
      show firstLevel? layout (line :: (pipeSlashes layout lines).1) = _
      rw [firstLevel?, firstLevel?, ih]
    | some repaired =>
      rcases pipeSlash?_eq_some hrepaired with ⟨head, text, -, hhead, rfl⟩ | ⟨-, hslash, rfl⟩
      · exact firstLevel?_bare_cons hhead
      · show firstLevel? layout (_ :: _) = _
        rw [firstLevel?_cons_of_ne_nil (content_pipeLine_ne_nil (fun _ => eq_space_of_mem_margin) _),
          firstLevel?_cons_of_ne_nil (content_ne_nil_of_head? hslash), NumberedLine.level,
          margin_pipeLine (fun _ => eq_space_of_mem_margin), NumberedLine.level]

/-- The texts that are moved from behind a head have brackets in pairs. -/
def MovesPairs (lines : List NumberedLine) : Prop :=
  ∀ line ∈ lines, ∀ behind ∈ slashBehindHead? line.content, HasBracketPair behind.2

/-- Repairing slashes leaves lines valid exactly if it takes no brackets apart. -/
theorem isStepwise_pipeSlashes_iff (h : IsStepwise layout lines) :
    IsStepwise layout (pipeSlashes layout lines).1 ↔ MovesPairs lines := by
  induction lines with
  | nil => simp [pipeSlashes, IsStepwise, MovesPairs]
  | cons line lines ih =>
    have hrest := ih h.2
    have hfirst := firstLevel?_pipeSlashes layout lines
    rw [MovesPairs, List.forall_mem_cons, ← MovesPairs, pipeSlashes]
    cases hrepaired : pipeSlash? layout line with
    | none =>
      show IsStepwise layout (line :: (pipeSlashes layout lines).1) ↔ _
      rw [(pipeSlash?_eq_none_iff.1 hrepaired).1, IsStepwise, hfirst, and_iff_right h.1, hrest]
      simp
    | some repaired =>
      rcases pipeSlash?_eq_some hrepaired with ⟨head, text, hbehind, hhead, rfl⟩ | ⟨hnone, hslash, rfl⟩
      · obtain ⟨⟨hclean, hnext⟩, -⟩ :=
          (isStepwise_cons_of_ne_nil (content_ne_nil_of_headAndText? hhead)).1 h
        have hpipe : ∀ c ∈ line.margin ++ layout.indent 1, c = ' ' :=
          fun _ => eq_space_of_mem_margin_indent
        show IsStepwise layout (_ :: _ :: (pipeSlashes layout lines).1) ↔ _
        rw [isStepwise_bare_cons hhead hclean, isStepwise_pipeLine_cons hpipe,
          firstLevel?_cons_of_ne_nil (content_pipeLine_ne_nil hpipe text), level_pipeLine, hfirst,
          hrest, hbehind]
        simp only [Option.mem_def, Option.some.injEq, forall_eq', Nat.le_refl, true_and]
        constructor
        · rintro ⟨⟨hpair, -⟩, hmoves⟩
          exact ⟨hpair, hmoves⟩
        · rintro ⟨hpair, hmoves⟩
          exact ⟨⟨hpair, fun level hlevel => (hnext level hlevel).trans (by omega)⟩, hmoves⟩
      · obtain ⟨⟨hclean, hnext⟩, -⟩ :=
          (isStepwise_cons_of_ne_nil (content_ne_nil_of_head? hslash)).1 h
        have hpipe : ∀ c ∈ line.margin, c = ' ' := fun _ => eq_space_of_mem_margin
        show IsStepwise layout (_ :: (pipeSlashes layout lines).1) ↔ _
        rw [isStepwise_pipeLine_cons hpipe, NumberedLine.level, margin_pipeLine hpipe,
          ← NumberedLine.level, hfirst, hrest, hnone,
          and_iff_right ⟨brackets_eq_none_iff.1 hclean.brackets, hnext⟩]
        simp

/-! ## Text over several lines -/

/-- A place where text over several lines is repaired. -/
structure Fold where
  /-- The element that has text behind its head. -/
  element : NumberedLine
  text : Text
  /-- What follows the lines of text below the element. -/
  after : List NumberedLine

/-- The places where text over several lines is repaired. -/
def folds (lines : List NumberedLine) : List Fold :=
  match lines with
  | [] => []
  | line :: lines =>
    match headAndText? line.content with
    | none => folds lines
    | some (_, text) =>
      if (lines.takeWhile (isTextBelow line.margin.length)).isEmpty then folds lines
      else
        let after := lines.dropWhile (isTextBelow line.margin.length)
        ⟨line, text, after⟩ :: folds after
termination_by lines.length
decreasing_by
  · simp
  · simp
  · have := (List.dropWhile_sublist (l := lines) (isTextBelow line.margin.length)).length_le
    simp only [List.length_cons]
    omega

section Folds

variable {head text : Text}

theorem folds_cons_of_none (h : headAndText? line.content = none) :
    folds (line :: lines) = folds lines := by
  rw [folds, h]

theorem folds_cons_of_isEmpty (h : headAndText? line.content = some (head, text))
    (hbelow : (lines.takeWhile (isTextBelow line.margin.length)).isEmpty = true) :
    folds (line :: lines) = folds lines := by
  rw [folds, h]
  simp only [if_pos hbelow]

theorem folds_cons_of_some (h : headAndText? line.content = some (head, text))
    (hbelow : ¬(lines.takeWhile (isTextBelow line.margin.length)).isEmpty = true) :
    folds (line :: lines) =
      ⟨line, text, lines.dropWhile (isTextBelow line.margin.length)⟩ ::
        folds (lines.dropWhile (isTextBelow line.margin.length)) := by
  rw [folds, h]
  simp only [if_neg hbelow]

end Folds

/-- Every place is reported. -/
theorem map_folds (layout : Layout) (lines : List NumberedLine) :
    (folds lines).map (fun fold => Fix.multiline fold.element.number) =
      (pipeMultiline layout lines).2 := by
  fun_induction pipeMultiline layout lines with
  | case1 => rw [folds, List.map_nil]
  | case2 line lines hnone rest fixes hrest ih =>
    rw [hrest] at ih
    rw [folds_cons_of_none hnone, ih]
  | case3 line lines head text hsome below hbelow rest fixes hrest ih =>
    rw [hrest] at ih
    rw [folds_cons_of_isEmpty hsome hbelow, ih]
  | case4 line lines head text hsome below hbelow indent rest fixes hrest ih =>
    rw [hrest] at ih
    rw [folds_cons_of_some hsome hbelow, List.map_cons, ih]

/-- The repair of text over several lines keeps the level of the first line. -/
theorem firstLevel?_pipeMultiline (layout : Layout) (lines : List NumberedLine) :
    firstLevel? layout (pipeMultiline layout lines).1 = firstLevel? layout lines := by
  fun_induction pipeMultiline layout lines with
  | case1 => rfl
  | case2 line lines hnone rest fixes hrest ih =>
    rw [hrest] at ih
    rw [firstLevel?, firstLevel?, ih]
  | case3 line lines head text hsome below hbelow rest fixes hrest ih =>
    rw [hrest] at ih
    rw [firstLevel?, firstLevel?, ih]
  | case4 line lines head text hsome =>
    exact firstLevel?_bare_cons hsome

theorem IsStepwise.of_append (h : IsStepwise layout (lines ++ lines')) :
    IsStepwise layout lines' := by
  induction lines with
  | nil => exact h
  | cons line lines ih => exact ih h.2

/-- Lines behind bars stand one level below their element. -/
theorem isStepwise_pipes_iff {element : NumberedLine} {number : Nat} {text : Text}
    {below : List NumberedLine} (h : ∀ l ∈ below, HasBracketPair l.content) :
    IsStepwise layout (pipeLine number (element.margin ++ layout.indent 1) text ::
        (below.map fun l => pipeLine l.number (element.margin ++ layout.indent 1) l.content) ++
        lines) ↔
      (HasBracketPair text ∧ ∀ level ∈ firstLevel? layout lines, level ≤ element.level layout + 2) ∧
        IsStepwise layout lines := by
  have hpipe : ∀ c ∈ element.margin ++ layout.indent 1, c = ' ' :=
    fun _ => eq_space_of_mem_margin_indent
  induction below generalizing number text with
  | nil =>
    rw [List.map_nil, List.singleton_append, isStepwise_pipeLine_cons hpipe, level_pipeLine]
  | cons l below ih =>
    obtain ⟨hl, hbelow⟩ := List.forall_mem_cons.1 h
    have hrest : IsStepwise layout (pipeLine l.number (element.margin ++ layout.indent 1) l.content ::
        ((below.map fun l => pipeLine l.number (element.margin ++ layout.indent 1) l.content) ++
        lines)) ↔ _ := ih hbelow
    rw [List.map_cons, List.cons_append, isStepwise_pipeLine_cons hpipe, List.cons_append, hrest,
      firstLevel?_cons_of_ne_nil (content_pipeLine_ne_nil hpipe l.content), level_pipeLine,
      level_pipeLine, and_iff_right hl]
    simp [and_assoc]

/-- The repair leaves no error at a place: the text of the element has its brackets in pairs, and
what follows is at most two levels deeper than the element. -/
def Fold.IsSound (layout : Layout) (fold : Fold) : Prop :=
  HasBracketPair fold.text ∧
    ∀ level ∈ firstLevel? layout fold.after, level ≤ fold.element.level layout + 2

/-- The repair of text over several lines leaves lines valid exactly if it does so at each
place. -/
theorem isStepwise_pipeMultiline_iff (h : IsStepwise layout lines) :
    IsStepwise layout (pipeMultiline layout lines).1 ↔
      ∀ fold ∈ folds lines, fold.IsSound layout := by
  fun_induction pipeMultiline layout lines with
  | case1 => simp [folds, IsStepwise]
  | case2 line lines hnone rest fixes hrest ih =>
    have hfirst := firstLevel?_pipeMultiline layout lines
    rw [hrest] at ih hfirst
    rw [folds_cons_of_none hnone, IsStepwise, hfirst, and_iff_right h.1]
    exact ih h.2
  | case3 line lines head text hsome below hbelow rest fixes hrest ih =>
    have hfirst := firstLevel?_pipeMultiline layout lines
    rw [hrest] at ih hfirst
    rw [folds_cons_of_isEmpty hsome hbelow, IsStepwise, hfirst, and_iff_right h.1]
    exact ih h.2
  | case4 line lines head text hsome below hbelow indent rest fixes hrest ih =>
    have hfirst := firstLevel?_pipeMultiline layout (lines.dropWhile (isTextBelow line.margin.length))
    rw [hrest] at ih hfirst
    have hclean := h.isClean List.mem_cons_self (content_ne_nil_of_headAndText? hsome)
    -- The lines below were checked before and are no blank lines, so their brackets are in pairs.
    have hpairs : ∀ l ∈ below, HasBracketPair l.content := by
      intro l hl
      have htext : isTextBelow line.margin.length l = true := List.mem_takeWhile_imp hl
      have hne : l.content ≠ [] := by
        intro hnil
        rw [isTextBelow, hnil] at htext
        exact absurd htext (by simp [isMarkup])
      have hmem : l ∈ lines := (List.takeWhile_sublist _).subset hl
      exact brackets_eq_none_iff.1 (h.isClean (List.mem_cons_of_mem _ hmem) hne).brackets
    have hafter : IsStepwise layout (lines.dropWhile (isTextBelow line.margin.length)) := by
      have hsplit : below ++ lines.dropWhile (isTextBelow line.margin.length) = lines :=
        List.takeWhile_append_dropWhile
      exact IsStepwise.of_append (hsplit.symm ▸ h.2)
    have hpipe : ∀ c ∈ line.margin ++ layout.indent 1, c = ' ' :=
      fun _ => eq_space_of_mem_margin_indent
    rw [folds_cons_of_some hsome hbelow, List.forall_mem_cons, List.cons_append,
      isStepwise_bare_cons hsome hclean, isStepwise_pipes_iff hpairs, ih hafter, hfirst,
      List.cons_append, firstLevel?_cons_of_ne_nil (content_pipeLine_ne_nil hpipe text),
      level_pipeLine]
    simp [Fold.IsSound]

/-! ## Both repairs -/

theorem mem_pipeSlashes_of_mem {repaired : List NumberedLine} {new : NumberedLine}
    (h : line ∈ lines) (hrepaired : pipeSlash? layout line = some repaired) (hnew : new ∈ repaired) :
    new ∈ (pipeSlashes layout lines).1 := by
  induction lines with
  | nil => cases h
  | cons first lines ih =>
    rw [pipeSlashes]
    rcases List.mem_cons.1 h with rfl | h
    · rw [hrepaired]
      exact List.mem_append_left _ hnew
    · have hrest := ih h
      cases pipeSlash? layout first with
      | none => exact List.mem_cons_of_mem _ hrest
      | some others => exact List.mem_append_right _ hrest

/-- A line behind a bar stays when text over several lines is repaired. -/
theorem mem_pipeMultiline_of_bar (hbar : line.content.head? = some '|') (h : line ∈ lines) :
    line ∈ (pipeMultiline layout lines).1 := by
  fun_induction pipeMultiline layout lines with
  | case1 => cases h
  | case2 first lines hnone rest fixes hrest ih =>
    rw [hrest] at ih
    rcases List.mem_cons.1 h with rfl | h
    · exact List.mem_cons_self
    · exact List.mem_cons_of_mem _ (ih h)
  | case3 first lines head text hsome below hbelow rest fixes hrest ih =>
    rw [hrest] at ih
    rcases List.mem_cons.1 h with rfl | h
    · exact List.mem_cons_self
    · exact List.mem_cons_of_mem _ (ih h)
  | case4 first lines head text hsome below hbelow indent rest fixes hrest ih =>
    rw [hrest] at ih
    rcases List.mem_cons.1 h with rfl | h
    · have hnone := headAndText?_eq_none_of_head? hbar (by decide) (by decide) (by decide)
      exact absurd (hnone.symm.trans hsome) (by simp)
    · rw [← List.takeWhile_append_dropWhile (p := isTextBelow first.margin.length) (l := lines)] at h
      rcases List.mem_append.1 h with h | h
      · have htext := List.mem_takeWhile_imp h
        rw [isTextBelow_of_bar hbar] at htext
        exact absurd htext (by decide)
      · exact List.mem_append_right _ (ih h)

variable {options : RepairOptions}

/-- The lines after slashes are repaired, if they are to be. -/
def afterSlashes (options : RepairOptions) (lines : List NumberedLine) : List NumberedLine :=
  if options.slashes then (pipeSlashes options.layout lines).1 else lines

theorem settle_fst (options : RepairOptions) (lines : List NumberedLine) :
    (settle options lines).1 =
      if options.multiline then (pipeMultiline options.layout (afterSlashes options lines)).1
      else afterSlashes options lines := by
  rw [settle, afterSlashes]
  cases options.multiline <;> cases options.slashes <;> rfl

theorem firstLevel?_settle (options : RepairOptions) (lines : List NumberedLine) :
    firstLevel? options.layout (settle options lines).1 = firstLevel? options.layout lines := by
  have hslashes : firstLevel? options.layout (afterSlashes options lines) =
      firstLevel? options.layout lines := by
    rw [afterSlashes]
    split
    · exact firstLevel?_pipeSlashes _ _
    · rfl
  rw [settle_fst]
  split
  · rw [firstLevel?_pipeMultiline, hslashes]
  · exact hslashes

/-- A text that was moved and has one kind of bracket stays so. -/
theorem movesPairs_of_isStepwise_settle (hslashes : options.slashes = true)
    (h : IsStepwise options.layout (settle options lines).1) : MovesPairs lines := by
  intro line hline ⟨head, text⟩ hbehind
  let pipe := pipeLine line.number (line.margin ++ options.layout.indent 1) text
  have hindent : ∀ c ∈ line.margin ++ options.layout.indent 1, c = ' ' :=
    fun _ => eq_space_of_mem_margin_indent
  have hrepaired : pipeSlash? options.layout line =
      some [⟨line.number, line.margin ++ head⟩, pipe] := by
    rw [pipeSlash?, Option.mem_def.1 hbehind]
  have hmem : pipe ∈ afterSlashes options lines := by
    rw [afterSlashes, if_pos hslashes]
    exact mem_pipeSlashes_of_mem hline hrepaired (by simp)
  have hsettled : pipe ∈ (settle options lines).1 := by
    rw [settle_fst]
    split
    · exact mem_pipeMultiline_of_bar (head?_content_pipeLine hindent text) hmem
    · exact hmem
  exact (isClean_pipeLine_iff hindent).1
    (h.isClean hsettled (content_pipeLine_ne_nil hindent text))

/-- Repaired lines are valid exactly if no text that is moved has one kind of bracket, and the
repair is sound at each place where text over several lines is repaired. -/
theorem isStepwise_settle_iff (h : IsStepwise options.layout lines) :
    IsStepwise options.layout (settle options lines).1 ↔
      (options.slashes = true → MovesPairs lines) ∧
        (options.multiline = true →
          ∀ fold ∈ folds (afterSlashes options lines), fold.IsSound options.layout) := by
  have hafter : (options.slashes = true → MovesPairs lines) →
      IsStepwise options.layout (afterSlashes options lines) := by
    intro hmoves
    rw [afterSlashes]
    split
    · next hslashes => exact (isStepwise_pipeSlashes_iff h).2 (hmoves hslashes)
    · exact h
  constructor
  · intro hsettled
    -- A moved text stands behind a bar, where the second repair leaves it alone.
    have hmoves := fun hslashes => movesPairs_of_isStepwise_settle hslashes hsettled
    refine ⟨hmoves, fun hmultiline => ?_⟩
    rw [settle_fst, if_pos hmultiline] at hsettled
    exact (isStepwise_pipeMultiline_iff (hafter hmoves)).1 hsettled
  · rintro ⟨hmoves, hfolds⟩
    rw [settle_fst]
    split
    · next hmultiline =>
      exact (isStepwise_pipeMultiline_iff (hafter hmoves)).2 (hfolds hmultiline)
    · exact hafter hmoves

instance (text : Text) : Decidable (HasBracketPair text) :=
  inferInstanceAs (Decidable ('[' ∈ text ↔ ']' ∈ text))

instance (lines : List NumberedLine) : Decidable (MovesPairs lines) :=
  inferInstanceAs (Decidable (∀ line ∈ lines, ∀ behind ∈ _, _))

instance (layout : Layout) (fold : Fold) : Decidable (fold.IsSound layout) :=
  inferInstanceAs (Decidable (_ ∧ _))

end Repair

open Repair Validation

/-- The repair of a valid source is valid exactly if the following hold. No text that is moved
from behind a head because it starts with a slash has brackets of one kind alone. And wherever
text over several lines is repaired, neither has the text behind the head, and the first visible
line after the text is at most two levels deeper than the element. -/
theorem isValid_repair_iff (options : RepairOptions) (source : Text)
    (h : (validate (checksWith options.layout) source).isValid = true) :
    (validate (checksWith options.layout) (repair options source).content).isValid = true ↔
      (options.slashes = true → MovesPairs (numberFrom 1 (Text.lines source))) ∧
        (options.multiline = true →
          ∀ fold ∈ folds (afterSlashes options (numberFrom 1 (Text.lines source))),
            fold.IsSound options.layout) := by
  have hlines := (isValid_iff_of_spells (spells_numberFrom 1 (Text.lines source))).1 h
  have hfeed : ∀ line ∈ numberFrom 1 (Text.lines source), '\n' ∉ line.text := by
    have htexts : ∀ text ∈ (numberFrom 1 (Text.lines source)).map (·.text), '\n' ∉ text := by
      rw [map_text_numberFrom]
      exact fun text htext => Text.lineFeed_not_mem_of_mem_lines htext
    exact fun line hline => htexts line.text (List.mem_map.2 ⟨line, hline, rfl⟩)
  rw [repair_eq, isValid_unlines_iff (not_mem_settle (by decide) (by decide) hfeed),
    firstLevel?_settle, and_iff_right hlines.1, isStepwise_settle_iff hlines.2]

/-- A list with a price and a description over several lines. -/
def priceList : Text :=
  "a[title='per month'] /month\np Long\n  text\n    here\n    .note\n".toList

/-- Both repairs are made, and the note below the text is not too deep afterwards. -/
theorem isValid_repair_priceList :
    (validate .standard priceList).isValid = true ∧
    (repair .standard priceList).content =
      "a[title='per month']\n  | /month\np\n  | Long\n  | text\n  | here\n    .note\n".toList ∧
    (validate .standard (repair .standard priceList).content).isValid = true :=
  ⟨by decide +kernel, by decide +kernel,
    (isValid_repair_iff .standard priceList (by decide +kernel)).2
      ⟨fun _ => by decide +kernel, fun _ => by decide +kernel⟩⟩

/-- A note three levels below its paragraph. -/
def deepNote : Text :=
  "p Intro\n  text one\n    text two\n      .note\n".toList

/-- The lines of text come to one level, and the note below them is then too deep. -/
theorem not_isValid_repair_deepNote :
    (validate .standard deepNote).isValid = true ∧
    (repair .standard deepNote).content =
      "p\n  | Intro\n  | text one\n  | text two\n      .note\n".toList ∧
    (validate .standard (repair .standard deepNote).content).errors =
      [.inLine 5 (.indentJump 2 3)] := by
  refine ⟨?_, ?_, ?_⟩ <;> decide +kernel

end SlimTemplate
