import SlimTemplate.Proofs.Repair.Idempotent

/-!
# The steps of a repair

Both repairs together take a source from its first line to its last, a step at a time. A step keeps
a line, writes text that starts with a slash behind a bar, takes such text from behind a head, or
folds an element with the lines of text below it. The last of those lines may itself have text
behind its head that starts with a slash: that text is a line of its own by then, and ends the fold.

## Main definitions

* `Repair.SplitLine`: a line and the head and the text that it is taken apart into.
* `Repair.Step`: a step, with the lines that it takes, what it writes and what it reports.
* `Repair.IsAccount`: steps that account for lines after both repairs.
* `Repair.IsRun`: all the text below an element, before and after the repair of slashes.

## Main statements

* `Repair.exists_isAccount`: each repair is made of steps.
-/

namespace SlimTemplate.Repair

/-- A line and the head and the text that it is taken apart into. -/
structure SplitLine where
  line : NumberedLine
  head : Text
  text : Text

namespace SplitLine

/-- The line that is left of a line without its text. -/
def bare (split : SplitLine) : NumberedLine :=
  ⟨split.line.number, split.line.margin ++ split.head⟩

/-- The text of a line behind a bar, one level deeper. -/
def piped (layout : Layout) (split : SplitLine) : NumberedLine :=
  pipeLine split.line.number (split.line.margin ++ layout.indent 1) split.text

/-- The text behind the head of the line starts with a slash. -/
def IsSlash (split : SplitLine) : Prop :=
  slashBehindHead? split.line.content = some (split.head, split.text)

/-- The line is an element with text. -/
def IsElement (split : SplitLine) : Prop :=
  headAndText? split.line.content = some (split.head, split.text)

theorem IsSlash.isElement {split : SplitLine} (h : split.IsSlash) : split.IsElement :=
  (Option.filter_eq_some_iff.1 h).1

end SplitLine

/-- A step of a repair. -/
inductive Step where
  /-- A line stays as it is. -/
  | kept (line : NumberedLine)
  /-- A line is text that starts with a slash. -/
  | slashText (line : NumberedLine)
  /-- A line has text behind its head that starts with a slash. -/
  | slashBehindHead (split : SplitLine)
  /-- An element has lines of text below, the last of which may be one whose own text starts with a
  slash. -/
  | fold (element : SplitLine) (below : List NumberedLine) (last : Option SplitLine)

namespace Step

/-- The lines of the source that a step takes. -/
def lines : Step → List NumberedLine
  | kept line => [line]
  | slashText line => [line]
  | slashBehindHead split => [split.line]
  | fold element below last => element.line :: below ++ last.toList.map (·.line)

/-- The lines that a step writes as they were or leaves without their text. -/
def bares : Step → List NumberedLine
  | kept line => [line]
  | slashText _ => []
  | slashBehindHead split => [split.bare]
  | fold element _ _ => [element.bare]

/-- The lines behind bars that a step creates. -/
def pipes (layout : Layout) : Step → List NumberedLine
  | kept _ => []
  | slashText line => [pipeLine line.number line.margin line.content]
  | slashBehindHead split => [split.piped layout]
  | fold element below last =>
    let indent := element.line.margin ++ layout.indent 1
    element.piped layout ::
      (below.map fun line => pipeLine line.number indent line.content) ++
      last.toList.flatMap fun split =>
        [pipeLine split.line.number indent split.head, split.piped layout]

/-- The lines that a step writes. -/
def written (layout : Layout) (step : Step) : List NumberedLine :=
  step.bares ++ step.pipes layout

/-- The lines whose text is taken from behind their head because it starts with a slash. -/
def splits : Step → List NumberedLine
  | kept _ | slashText _ => []
  | slashBehindHead split => [split.line]
  | fold _ _ last => last.toList.map (·.line)

/-- The repairs of slashes that a step reports. -/
def slashes : Step → List Fix
  | slashText line => [.slash line.number]
  | step => step.splits.map fun line => .slash line.number

/-- The repairs of text over several lines that a step reports. -/
def folds : Step → List Fix
  | fold element _ _ => [.multiline element.line.number]
  | _ => []

/-- A step is one that the options allow at its lines. -/
def IsSound (options : RepairOptions) : Step → Prop
  | kept _ => True
  | slashText line => options.slashes = true ∧ isSlashText line.content = true
  | slashBehindHead split => options.slashes = true ∧ split.IsSlash
  | fold element below last =>
    options.multiline = true ∧ element.IsElement ∧
      below ++ last.toList.map (·.line) ≠ [] ∧
      (∀ line ∈ below ++ last.toList.map (·.line),
        isTextBelow element.line.margin.length line = true) ∧
      ∀ split ∈ last, options.slashes = true ∧ split.IsSlash

end Step

/-- Steps that account for what both repairs make of lines: what they take, write and report is what
the repairs do. -/
structure IsAccount (options : RepairOptions) (lines : List NumberedLine)
    (written : List NumberedLine) (slashes folds : List Fix) (steps : List Step) : Prop where
  isSound : ∀ step ∈ steps, step.IsSound options
  lines_eq : steps.flatMap Step.lines = lines
  written_eq : steps.flatMap (Step.written options.layout) = written
  slashes_eq : steps.flatMap Step.slashes = slashes
  folds_eq : steps.flatMap Step.folds = folds

variable {options : RepairOptions} {layout : Layout} {line : NumberedLine}
  {lines written : List NumberedLine} {slashes folds : List Fix} {steps : List Step}

theorem IsAccount.nil (options : RepairOptions) : IsAccount options [] [] [] [] [] :=
  ⟨by simp, rfl, rfl, rfl, rfl⟩

theorem IsAccount.cons {step : Step} (hstep : step.IsSound options)
    (h : IsAccount options lines written slashes folds steps) :
    IsAccount options (step.lines ++ lines) (step.written options.layout ++ written)
      (step.slashes ++ slashes) (step.folds ++ folds) (step :: steps) := by
  refine ⟨List.forall_mem_cons.2 ⟨hstep, h.isSound⟩, ?_, ?_, ?_, ?_⟩
  · rw [List.flatMap_cons, h.lines_eq]
  · rw [List.flatMap_cons, h.written_eq]
  · rw [List.flatMap_cons, h.slashes_eq]
  · rw [List.flatMap_cons, h.folds_eq]

/-! ## Text that starts with a slash -/

/-- The step that the repair of slashes makes at a line. -/
def slashStep (options : RepairOptions) (line : NumberedLine) : Step :=
  if options.slashes then
    match slashBehindHead? line.content with
    | some (head, text) => .slashBehindHead ⟨line, head, text⟩
    | none => if isSlashText line.content then .slashText line else .kept line
  else .kept line

/-- A step at a line: it is sound, takes that line and folds nothing. -/
structure IsStepAt (options : RepairOptions) (line : NumberedLine) (step : Step) : Prop where
  isSound : step.IsSound options
  lines_eq : step.lines = [line]
  folds_eq : step.folds = []

theorem isStepAt_slashStep (options : RepairOptions) (line : NumberedLine) :
    IsStepAt options line (slashStep options line) := by
  rw [slashStep]
  split
  · next hslashes =>
    split
    · next head text hbehind => exact ⟨⟨hslashes, hbehind⟩, rfl, rfl⟩
    · split
      · next htext => exact ⟨⟨hslashes, htext⟩, rfl, rfl⟩
      · exact ⟨trivial, rfl, rfl⟩
  · exact ⟨trivial, rfl, rfl⟩

/-- The lines with text that starts with a slash repaired, if that is asked for. -/
def unslashed (options : RepairOptions) (lines : List NumberedLine) : List NumberedLine :=
  lines.flatMap fun line => (slashStep options line).written options.layout

theorem unslashed_cons (options : RepairOptions) (line : NumberedLine)
    (lines : List NumberedLine) :
    unslashed options (line :: lines) =
      (slashStep options line).written options.layout ++ unslashed options lines :=
  List.flatMap_cons

theorem unslashed_cons_of_kept (h : slashStep options line = .kept line)
    (lines : List NumberedLine) :
    unslashed options (line :: lines) = line :: unslashed options lines := by
  rw [unslashed_cons, h]
  rfl

/-- The repair of slashes makes one step at the next line. -/
theorem IsAccount.cons_slashStep (line : NumberedLine)
    (h : IsAccount options lines written
      (lines.flatMap fun line => (slashStep options line).slashes) folds steps) :
    IsAccount options (line :: lines) ((slashStep options line).written options.layout ++ written)
      ((line :: lines).flatMap fun line => (slashStep options line).slashes) folds
      (slashStep options line :: steps) := by
  have hat := isStepAt_slashStep options line
  have hcons := h.cons hat.isSound
  rw [hat.lines_eq, hat.folds_eq] at hcons
  rw [List.flatMap_cons]
  exact hcons

theorem pipeSlashes_eq (h : options.slashes = true) (lines : List NumberedLine) :
    pipeSlashes options.layout lines =
      (unslashed options lines, lines.flatMap fun line => (slashStep options line).slashes) := by
  induction lines with
  | nil => rfl
  | cons line lines ih =>
    rw [pipeSlashes, ih, unslashed_cons, List.flatMap_cons, slashStep, if_pos h, pipeSlash?]
    cases slashBehindHead? line.content with
    | some behind => rfl
    | none => cases isSlashText line.content <;> rfl

/-- The repair of slashes reports nothing at lines that it keeps. -/
theorem flatMap_slashes_of_kept (h : ∀ line ∈ lines, slashStep options line = .kept line) :
    (lines.flatMap fun line => (slashStep options line).slashes) = [] := by
  rw [List.flatMap_eq_nil_iff]
  intro line hline
  rw [h line hline]
  rfl

theorem unslashed_of_kept (h : ∀ line ∈ lines, slashStep options line = .kept line) :
    unslashed options lines = lines := by
  induction lines with
  | nil => rfl
  | cons line lines ih =>
    obtain ⟨hline, hlines⟩ := List.forall_mem_cons.1 h
    rw [unslashed_cons_of_kept hline, ih hlines]

/-- Both repairs, the first of them step by step. -/
theorem settle_eq (options : RepairOptions) (lines : List NumberedLine) :
    settle options lines =
      let folds :=
        if options.multiline then pipeMultiline options.layout (unslashed options lines)
        else (unslashed options lines, [])
      (folds.1, (lines.flatMap fun line => (slashStep options line).slashes) ++ folds.2) := by
  cases h : options.slashes with
  | true => rw [settle, h, if_pos rfl, pipeSlashes_eq h]
  | false =>
    have hkept : ∀ line ∈ lines, slashStep options line = .kept line := by
      intro line _
      rw [slashStep, if_neg (by simp [h])]
    rw [settle, h, unslashed_of_kept hkept, flatMap_slashes_of_kept hkept]
    rfl

/-! ## Text over several lines -/

theorem pipeMultiline_cons_of_none (h : headAndText? line.content = none)
    (lines : List NumberedLine) :
    pipeMultiline layout (line :: lines) =
      (line :: (pipeMultiline layout lines).1, (pipeMultiline layout lines).2) := by
  rw [pipeMultiline, h]

theorem pipeMultiline_append_of_none {before : List NumberedLine}
    (h : ∀ line ∈ before, headAndText? line.content = none) (lines : List NumberedLine) :
    pipeMultiline layout (before ++ lines) =
      (before ++ (pipeMultiline layout lines).1, (pipeMultiline layout lines).2) := by
  induction before with
  | nil => rfl
  | cons line before ih =>
    obtain ⟨hline, hbefore⟩ := List.forall_mem_cons.1 h
    rw [List.cons_append, pipeMultiline_cons_of_none hline, ih hbefore]
    rfl

theorem pipeMultiline_cons_of_isEmpty (h : (lines.takeWhile
    (isTextBelow line.margin.length)).isEmpty = true) :
    pipeMultiline layout (line :: lines) =
      (line :: (pipeMultiline layout lines).1, (pipeMultiline layout lines).2) := by
  rw [pipeMultiline]
  split
  · rfl
  · simp only [if_pos h]

theorem pipeMultiline_cons_of_fold {head text : Text} {below after : List NumberedLine}
    (h : headAndText? line.content = some (head, text)) (hne : below ≠ [])
    (htake : lines.takeWhile (isTextBelow line.margin.length) = below)
    (hdrop : lines.dropWhile (isTextBelow line.margin.length) = after) :
    pipeMultiline layout (line :: lines) =
      (⟨line.number, line.margin ++ head⟩ ::
          pipeLine line.number (line.margin ++ layout.indent 1) text ::
            (below.map fun l =>
              pipeLine l.number (line.margin ++ layout.indent 1) l.content) ++
            (pipeMultiline layout after).1,
        .multiline line.number :: (pipeMultiline layout after).2) := by
  rw [pipeMultiline, h]
  simp only [htake, hdrop, List.isEmpty_iff, if_neg hne]

/-- What the repair of slashes writes at a line that is text below an element: the line itself, or
a bare head and the text behind a bar. -/
theorem slashStep_of_isTextBelow (options : RepairOptions) {depth : Nat}
    (h : isTextBelow depth line = true) :
    slashStep options line = .kept line ∨
      ∃ split : SplitLine, split.line = line ∧ options.slashes = true ∧ split.IsSlash ∧
        slashStep options line = .slashBehindHead split := by
  rw [slashStep]
  split
  · next hslashes =>
    split
    · next head text hbehind => exact .inr ⟨⟨line, head, text⟩, rfl, hslashes, hbehind, rfl⟩
    · split
      · next htext =>
        rw [isSlashText, Bool.and_eq_true, decide_eq_true_iff] at htext
        obtain ⟨rest, hrest⟩ := List.head?_eq_some_iff.1 htext.1
        have hsign : startsWithSign line.content = true := by
          rw [hrest]
          rfl
        exact absurd h (by simp [isTextBelow_of_startsWithSign hsign])
      · exact .inl rfl
  · exact .inl rfl

/-- A line is text below an element exactly if the first line is that the repair of slashes writes
for it. -/
theorem isTextBelow_head?_slashStep (options : RepairOptions) (depth : Nat)
    (line : NumberedLine) :
    ∃ first more, (slashStep options line).written options.layout = first :: more ∧
      isTextBelow depth first = isTextBelow depth line := by
  rw [slashStep]
  split
  · split
    · next head text hbehind =>
      exact ⟨_, _, rfl, isTextBelow_bare depth (Option.filter_eq_some_iff.1 hbehind).1⟩
    · split
      · next htext =>
        rw [isSlashText, Bool.and_eq_true, decide_eq_true_iff] at htext
        obtain ⟨rest, hrest⟩ := List.head?_eq_some_iff.1 htext.1
        have hsign : startsWithSign line.content = true := by
          rw [hrest]
          rfl
        refine ⟨_, _, rfl, ?_⟩
        rw [isTextBelow_of_bar (head?_content_pipeLine (fun _ => eq_space_of_mem_margin) _),
          isTextBelow_of_startsWithSign hsign]
      · exact ⟨_, _, rfl, rfl⟩
  · exact ⟨_, _, rfl, rfl⟩

/-- The lines of text below an element and the lines behind them. -/
structure Run where
  /-- The lines that the repair of slashes keeps. -/
  below : List NumberedLine
  /-- The last line, if its own text starts with a slash. -/
  last : Option SplitLine
  after : List NumberedLine

/-- The lines of text. -/
def Run.taken (run : Run) : List NumberedLine :=
  run.below ++ run.last.toList.map (·.line)

/-- What is left of the lines of text after the repair of slashes. -/
def Run.left (run : Run) : List NumberedLine :=
  run.below ++ run.last.toList.map SplitLine.bare

/-- The text below an element of the given depth. The repair of slashes keeps all of it but for at
most one line, whose text then stands behind a bar and is no longer text below the element. -/
structure IsRun (options : RepairOptions) (depth : Nat) (lines : List NumberedLine) (run : Run) :
    Prop where
  lines_eq : lines = run.taken ++ run.after
  isText : ∀ line ∈ run.taken, isTextBelow depth line = true
  isSlash : ∀ split ∈ run.last, options.slashes = true ∧ split.IsSlash
  kept : ∀ line ∈ run.below, slashStep options line = .kept line
  takeWhile_eq : (unslashed options lines).takeWhile (isTextBelow depth) = run.left
  dropWhile_eq : (unslashed options lines).dropWhile (isTextBelow depth) =
    run.last.toList.map (SplitLine.piped options.layout) ++ unslashed options run.after

section Run

variable {depth : Nat} {run : Run}

theorem Run.taken_eq_nil_iff : run.taken = [] ↔ run.left = [] := by
  simp [Run.taken, Run.left]

theorem isRun_nil (options : RepairOptions) (depth : Nat) :
    IsRun options depth [] ⟨[], none, []⟩ :=
  ⟨rfl, by simp [Run.taken], by simp, by simp, rfl, rfl⟩

/-- A line that is no text below the element ends the run. -/
theorem isRun_of_not_isTextBelow (options : RepairOptions)
    (hline : isTextBelow depth line = false) (lines : List NumberedLine) :
    IsRun options depth (line :: lines) ⟨[], none, line :: lines⟩ := by
  obtain ⟨first, more, hwritten, hfirst⟩ := isTextBelow_head?_slashStep options depth line
  have hneg : ¬isTextBelow depth first = true := by simp [hfirst, hline]
  refine ⟨rfl, by simp [Run.taken], by simp, by simp, ?_, ?_⟩
  · rw [unslashed_cons, hwritten, List.cons_append, List.takeWhile_cons_of_neg hneg]
    rfl
  · rw [unslashed_cons, hwritten, List.cons_append, List.dropWhile_cons_of_neg hneg]
    rfl

/-- A line that the repair of slashes keeps joins the run. -/
theorem IsRun.cons (h : IsRun options depth lines run) (hline : isTextBelow depth line = true)
    (hkept : slashStep options line = .kept line) :
    IsRun options depth (line :: lines) { run with below := line :: run.below } where
  lines_eq := congrArg (line :: ·) h.lines_eq
  isText := List.forall_mem_cons.2 ⟨hline, h.isText⟩
  isSlash := h.isSlash
  kept := List.forall_mem_cons.2 ⟨hkept, h.kept⟩
  takeWhile_eq := by
    rw [unslashed_cons_of_kept hkept, List.takeWhile_cons_of_pos hline, h.takeWhile_eq]
    rfl
  dropWhile_eq := by
    rw [unslashed_cons_of_kept hkept, List.dropWhile_cons_of_pos hline, h.dropWhile_eq]

/-- A line whose own text starts with a slash is the last one of the run: its bare head is text
below the element, but its text behind a bar is not. -/
theorem isRun_of_isSlash {split : SplitLine} (hline : isTextBelow depth split.line = true)
    (hslashes : options.slashes = true) (hslash : split.IsSlash)
    (hsplit : slashStep options split.line = .slashBehindHead split) (lines : List NumberedLine) :
    IsRun options depth (split.line :: lines) ⟨[], some split, lines⟩ := by
  have hunslashed : unslashed options (split.line :: lines) =
      split.bare :: split.piped options.layout :: unslashed options lines := by
    rw [unslashed_cons, hsplit]
    rfl
  have hbare : isTextBelow depth split.bare = true :=
    (isTextBelow_bare depth hslash.isElement).trans hline
  have hpiped : ¬isTextBelow depth (split.piped options.layout) = true := by
    have hbar : isTextBelow depth (split.piped options.layout) = false :=
      isTextBelow_of_bar (head?_content_pipeLine (fun _ => eq_space_of_mem_margin_indent) _) depth
    simp [hbar]
  refine ⟨rfl, by simpa [Run.taken] using hline, ?_, by simp, ?_, ?_⟩
  · exact fun _ hmem => Option.some.inj hmem ▸ ⟨hslashes, hslash⟩
  · rw [hunslashed, List.takeWhile_cons_of_pos hbare, List.takeWhile_cons_of_neg hpiped]
    rfl
  · rw [hunslashed, List.dropWhile_cons_of_pos hbare, List.dropWhile_cons_of_neg hpiped]
    rfl

/-- All lines begin with a run, which may be empty. -/
theorem exists_isRun (options : RepairOptions) (depth : Nat) (lines : List NumberedLine) :
    ∃ run, IsRun options depth lines run := by
  induction lines with
  | nil => exact ⟨_, isRun_nil options depth⟩
  | cons line lines ih =>
    cases hline : isTextBelow depth line with
    | false => exact ⟨_, isRun_of_not_isTextBelow options hline lines⟩
    | true =>
      rcases slashStep_of_isTextBelow options hline with
        hkept | ⟨split, rfl, hslashes, hslash, hsplit⟩
      · obtain ⟨run, hrun⟩ := ih
        exact ⟨_, hrun.cons hline hkept⟩
      · exact ⟨_, isRun_of_isSlash hline hslashes hslash hsplit lines⟩

end Run

/-! ## Both repairs -/

/-- What the repair of slashes writes at a line has no text behind a head, unless the line is kept. -/
theorem slashStep_eq_kept_or (options : RepairOptions) (line : NumberedLine) :
    slashStep options line = .kept line ∨
      ∀ new ∈ (slashStep options line).written options.layout,
        headAndText? new.content = none := by
  rw [slashStep]
  split
  · split
    · next head text hbehind =>
      right
      have hhead := (Option.filter_eq_some_iff.1 hbehind).1
      intro new hnew
      rcases List.mem_pair.1 hnew with rfl | rfl
      · exact (IsWritten.bare hhead).headAndText?_eq_none
      · exact (IsWritten.piped (fun _ => eq_space_of_mem_margin_indent)
          ((infix_of_headAndText? hhead).trans (content_isInfix line))).headAndText?_eq_none
    · split
      · right
        intro new hnew
        rw [List.mem_singleton.1 hnew]
        exact (IsWritten.piped (fun _ => eq_space_of_mem_margin)
          (content_isInfix line)).headAndText?_eq_none
      · exact .inl rfl
  · exact .inl rfl

theorem slashStep_of_isSlash {split : SplitLine} (hslashes : options.slashes = true)
    (h : split.IsSlash) : slashStep options split.line = .slashBehindHead split := by
  rw [slashStep, if_pos hslashes, h]

theorem headAndText?_piped (split : SplitLine) (layout : Layout) :
    headAndText? (split.piped layout).content = none :=
  headAndText?_eq_none_of_head?
    (head?_content_pipeLine (fun _ => eq_space_of_mem_margin_indent) _)
    (by decide) (by decide) (by decide)

/-- An element with text below it: the head and the text that it is taken apart into, and the run
of the lines below. -/
structure IsFold (options : RepairOptions) (element : SplitLine) (lines : List NumberedLine)
    (run : Run) : Prop where
  isElement : element.IsElement
  kept : slashStep options element.line = .kept element.line
  isRun : IsRun options element.line.margin.length lines run
  ne_nil : run.taken ≠ []

/-- The lines that are written for an element and the run below it. -/
def foldedLines (layout : Layout) (element : SplitLine) (run : Run) : List NumberedLine :=
  element.bare :: element.piped layout ::
    (run.left.map fun line =>
      pipeLine line.number (element.line.margin ++ layout.indent 1) line.content) ++
    run.last.toList.map (SplitLine.piped layout)

section Fold

variable {element : SplitLine} {run : Run}

/-- A fold accounts for its element, the lines below it and what follows. -/
theorem IsFold.isAccount (hfold : IsFold options element lines run)
    (hmultiline : options.multiline = true)
    (h : IsAccount options run.after written
      (run.after.flatMap fun line => (slashStep options line).slashes) folds steps) :
    IsAccount options (element.line :: lines) (foldedLines options.layout element run ++ written)
      ((element.line :: lines).flatMap fun line => (slashStep options line).slashes)
      (.multiline element.line.number :: folds) (.fold element run.below run.last :: steps) := by
  obtain ⟨below, last, after⟩ := run
  have hrun := hfold.isRun
  have hsound : Step.IsSound options (.fold element below last) :=
    ⟨hmultiline, hfold.isElement, hfold.ne_nil, hrun.isText, hrun.isSlash⟩
  have hcons := h.cons hsound
  refine ⟨hcons.isSound, hcons.lines_eq.trans ?_, hcons.written_eq.trans ?_,
    hcons.slashes_eq.trans ?_, hcons.folds_eq⟩
  · rw [hrun.lines_eq]
    rfl
  · cases last with
    | none => simp [Step.written, Step.bares, Step.pipes, foldedLines, Run.left]
    | some split =>
      have hcontent : split.bare.content = split.head :=
        content_bare (hrun.isSlash split rfl).2.isElement
      have hnumber : split.bare.number = split.line.number := rfl
      simp [Step.written, Step.bares, Step.pipes, foldedLines, Run.left, hcontent, hnumber]
  · rw [hrun.lines_eq, Run.taken, List.flatMap_cons, hfold.kept, List.flatMap_append,
      List.flatMap_append, flatMap_slashes_of_kept hrun.kept]
    cases last with
    | none => rfl
    | some split =>
      obtain ⟨hslashes, hslash⟩ := hrun.isSlash split rfl
      rw [Option.toList_some, List.map_singleton, List.flatMap_singleton,
        slashStep_of_isSlash hslashes hslash]
      rfl

theorem IsFold.pipeMultiline_eq (hfold : IsFold options element lines run) :
    pipeMultiline options.layout (unslashed options (element.line :: lines)) =
      (foldedLines options.layout element run ++
          (pipeMultiline options.layout (unslashed options run.after)).1,
        .multiline element.line.number ::
          (pipeMultiline options.layout (unslashed options run.after)).2) := by
  have hne : run.left ≠ [] := mt Run.taken_eq_nil_iff.2 hfold.ne_nil
  have hpiped : ∀ line ∈ run.last.toList.map (SplitLine.piped options.layout),
      headAndText? line.content = none := by
    intro line hline
    obtain ⟨split, -, rfl⟩ := List.mem_map.1 hline
    exact headAndText?_piped split options.layout
  rw [unslashed_cons_of_kept hfold.kept, pipeMultiline_cons_of_fold hfold.isElement hne
    hfold.isRun.takeWhile_eq hfold.isRun.dropWhile_eq, pipeMultiline_append_of_none hpiped]
  simp only [foldedLines, SplitLine.bare, SplitLine.piped, List.cons_append, List.append_assoc]

end Fold

/-- The repair of text over several lines folds the next line, or leaves it as the repair of slashes
does. -/
theorem pipeMultiline_unslashed_cons (options : RepairOptions) (line : NumberedLine)
    (lines : List NumberedLine) :
    pipeMultiline options.layout (unslashed options (line :: lines)) =
        ((slashStep options line).written options.layout ++
          (pipeMultiline options.layout (unslashed options lines)).1,
          (pipeMultiline options.layout (unslashed options lines)).2) ∨
      ∃ element run, element.line = line ∧ IsFold options element lines run := by
  rcases slashStep_eq_kept_or options line with hkept | hnone
  · cases hhead : headAndText? line.content with
    | none =>
      left
      rw [unslashed_cons_of_kept hkept, pipeMultiline_cons_of_none hhead, hkept]
      rfl
    | some behind =>
      obtain ⟨run, hrun⟩ := exists_isRun options line.margin.length lines
      by_cases hne : run.taken = []
      · left
        have hempty : run.left.isEmpty = true := by rw [Run.taken_eq_nil_iff.1 hne]; rfl
        rw [unslashed_cons_of_kept hkept,
          pipeMultiline_cons_of_isEmpty (by rw [hrun.takeWhile_eq]; exact hempty), hkept]
        rfl
      · right
        exact ⟨⟨line, behind.1, behind.2⟩, run, rfl, hhead, hkept, hrun, hne⟩
  · left
    rw [unslashed_cons, pipeMultiline_append_of_none hnone]

/-- What the repair of text over several lines makes of lines whose slashes are repaired is made of
steps. -/
theorem exists_isAccount_pipeMultiline (h : options.multiline = true)
    (lines : List NumberedLine) :
    ∃ steps, IsAccount options lines
      (pipeMultiline options.layout (unslashed options lines)).1
      (lines.flatMap fun line => (slashStep options line).slashes)
      (pipeMultiline options.layout (unslashed options lines)).2 steps := by
  -- A fold takes any number of lines, so the induction is on how many there are.
  induction hlength : lines.length using Nat.strong_induction_on generalizing lines with
  | _ length ih =>
    subst hlength
    cases lines with
    | nil => exact ⟨[], by simpa [pipeMultiline, unslashed] using IsAccount.nil options⟩
    | cons line lines =>
      rcases pipeMultiline_unslashed_cons options line lines with
        heq | ⟨element, run, rfl, hfold⟩
      · obtain ⟨steps, hsteps⟩ := ih lines.length (Nat.lt_succ_self _) lines rfl
        rw [heq]
        exact ⟨_, hsteps.cons_slashStep line⟩
      · have hlt : run.after.length < (element.line :: lines).length := by
          rw [List.length_cons, hfold.isRun.lines_eq, List.length_append]
          omega
        obtain ⟨steps, hsteps⟩ := ih run.after.length hlt run.after rfl
        rw [hfold.pipeMultiline_eq]
        exact ⟨_, hfold.isAccount h hsteps⟩

/-- The repair of slashes alone makes one step at each line. -/
theorem isAccount_unslashed (options : RepairOptions) (lines : List NumberedLine) :
    IsAccount options lines (unslashed options lines)
      (lines.flatMap fun line => (slashStep options line).slashes) []
      (lines.map (slashStep options)) := by
  induction lines with
  | nil => exact .nil options
  | cons line lines ih =>
    rw [unslashed_cons]
    exact ih.cons_slashStep line

/-- Both repairs together are made of steps. -/
theorem exists_isAccount (options : RepairOptions) (lines : List NumberedLine) :
    ∃ steps slashes folds, IsAccount options lines (settle options lines).1 slashes folds steps ∧
      (settle options lines).2 = slashes ++ folds := by
  rw [settle_eq]
  cases h : options.multiline with
  | true =>
    obtain ⟨steps, hsteps⟩ := exists_isAccount_pipeMultiline h lines
    exact ⟨steps, _, _, hsteps, rfl⟩
  | false => exact ⟨_, _, _, isAccount_unslashed options lines, rfl⟩

end SlimTemplate.Repair
