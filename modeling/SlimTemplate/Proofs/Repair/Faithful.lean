import SlimTemplate.Proofs.Repair.Step
import SlimTemplate.Proofs.Text.Solid

/-!
# A repair is a faithful edit

A repair reports every line that it does not keep. It never takes one that begins with a sign of
Slim for comments, code, output or text, and but for blanks and the bars of the lines that it
creates, it writes the text that it read.

## Main definitions

* `LineKind.isSigned`: the kinds of lines that no repair touches.
* `Repair.IsFaithful`: what steps have to say of a source and its repair.

## Main statements

* `repair_isFaithful`: every repair is made of faithful steps.
-/

namespace SlimTemplate

/-- The kinds of lines that begin with the sign of a comment, of code, of output or of text. -/
def LineKind.isSigned : LineKind → Bool
  | htmlComment | templateComment | code | output | textPipe => true
  | doctype | rubyBlock | shorthand | element | plain => false

namespace Repair

variable {options : RepairOptions} {layout : Layout} {line : NumberedLine} {step : Step}

/-! ## Lines that are kept -/

/-- A line of such a kind begins with a sign, and is a comment if that is a slash. -/
theorem isSigned_ofFirst {c : Char} {rest : Text}
    (h : (LineKind.ofFirst c rest).isSigned = true) :
    startsWithSign (c :: rest) = true ∧
      (c = '/' → (LineKind.ofFirst c rest).isComment = true) := by
  unfold LineKind.ofFirst at h ⊢
  split at h
  · next hslash =>
    rw [if_pos hslash, hslash]
    refine ⟨rfl, fun _ => ?_⟩
    split at h
    · rfl
    · split at h
      · next hblank => simp only [if_pos hblank, LineKind.isComment]
      · cases h
    · cases h
  · next hslash =>
    refine ⟨?_, fun hc => absurd hc hslash⟩
    split at h
    · next hc => rw [hc]; rfl
    · split at h
      · next hc => rw [hc]; rfl
      · split at h
        · cases h
        · split at h
          · next hc => rw [hc]; rfl
          · split at h
            · cases h
            · split at h <;> cases h

theorem isSigned_of {content : Text} (h : (LineKind.of content).isSigned = true) :
    startsWithSign content = true ∧ isSlashText content = false := by
  cases content with
  | nil => cases h
  | cons c rest =>
    have hdoctype : LineKind.startsDoctype (c :: rest) = false := by
      by_contra hdoctype
      rw [LineKind.of, if_pos (by simpa using hdoctype)] at h
      cases h
    have hof : LineKind.of (c :: rest) = LineKind.ofFirst c rest := by
      rw [LineKind.of, if_neg (by simp [hdoctype])]
    rw [hof] at h
    obtain ⟨hsign, hcomment⟩ := isSigned_ofFirst h
    refine ⟨hsign, ?_⟩
    rw [isSlashText, hof, Bool.and_eq_false_iff, List.head?_cons, decide_eq_false_iff_not,
      Bool.not_eq_false', Option.some.injEq]
    exact or_iff_not_imp_left.2 fun hc => hcomment (not_not.1 hc)

/-- An element is of no such kind. -/
theorem isSigned_of_headAndText? {content : Text} {behind : Text × Text}
    (h : headAndText? content = some behind) : (LineKind.of content).isSigned = false := by
  rw [headAndText?] at h
  split at h
  · next helement =>
    cases hkind : LineKind.of content with
    | shorthand => rfl
    | element => rfl
    | _ =>
      rw [hkind] at helement
      cases helement
  · cases h

/-- A step that is sound takes no line that begins with a sign, but to keep it. -/
theorem Step.IsSound.eq_kept (hsound : step.IsSound options) (hline : line ∈ step.lines)
    (h : (LineKind.of line.content).isSigned = true) : step = .kept line := by
  obtain ⟨hsign, hslash⟩ := isSigned_of h
  have helement : ∀ split : SplitLine, split.IsElement → line ≠ split.line := by
    rintro split hsplit rfl
    exact absurd (isSigned_of_headAndText? hsplit) (by simp [h])
  cases step with
  | kept l => rw [List.mem_singleton.1 hline]
  | slashText l =>
    rw [List.mem_singleton.1 hline] at hslash
    exact absurd hsound.2 (by simp [hslash])
  | slashBehindHead split =>
    exact absurd (List.mem_singleton.1 hline) (helement split hsound.2.isElement)
  | fold element below last =>
    obtain ⟨-, hisElement, -, hbelow, -⟩ := hsound
    rcases List.mem_cons.1 hline with hline | hline
    · exact absurd hline (helement element hisElement)
    · have htext := hbelow line hline
      rw [isTextBelow_of_startsWithSign hsign] at htext
      cases htext

/-- A step that reports nothing at a line and folds nothing keeps the line. -/
theorem Step.eq_kept (hline : line ∈ step.lines) (hslash : .slash line.number ∉ step.slashes)
    (hfolds : step.folds = []) : step = .kept line := by
  cases step with
  | kept l => rw [List.mem_singleton.1 hline]
  | slashText l =>
    rw [List.mem_singleton.1 hline] at hslash
    exact absurd List.mem_cons_self hslash
  | slashBehindHead split =>
    rw [List.mem_singleton.1 hline] at hslash
    exact absurd List.mem_cons_self hslash
  | fold element below last => cases hfolds

/-! ## What a step writes -/

/-- A step writes one line more for each text that it takes from behind a head or folds. -/
theorem Step.length_written (layout : Layout) (step : Step) :
    (step.written layout).length = step.lines.length + step.splits.length + step.folds.length := by
  cases step with
  | kept line => rfl
  | slashText line => rfl
  | slashBehindHead split => rfl
  | fold element below last =>
    cases last with
    | none => simp [written, bares, pipes, lines, splits, folds]
    | some split => simp [written, bares, pipes, lines, splits, folds]

theorem solid_of_spaces {indent : Text} (h : ∀ c ∈ indent, c = ' ') : Text.solid indent = [] :=
  Text.solid_eq_nil fun c hc => by rw [h c hc]; decide

/-- A line behind a bar has one bar more than the text. -/
theorem solid_pipeLine {number : Nat} {indent : Text} (h : ∀ c ∈ indent, c = ' ') (text : Text) :
    Text.solid (pipeLine number indent text).text = '|' :: Text.solid text := by
  rw [pipeLine, Text.solid_append, Text.solid_append, solid_of_spaces h]
  rfl

theorem inserts_pipeLine (number : Nat) {indent : Text} (h : ∀ c ∈ indent, c = ' ')
    (line : NumberedLine) :
    Text.Inserts '|' 1 (Text.solid line.text)
      (Text.solid (pipeLine number indent line.content).text) := by
  rw [solid_pipeLine h, NumberedLine.content, Text.solid_trim]
  exact .single '|' _

/-- A line that is taken apart is its head and its text. -/
theorem SplitLine.IsElement.solid_eq {split : SplitLine} (h : split.IsElement) :
    Text.solid split.line.text = Text.solid split.head ++ Text.solid split.text := by
  obtain ⟨c, rest, hcontent, -, htext⟩ := eq_append_of_headAndText? h
  rw [← Text.solid_trim, ← NumberedLine.content, hcontent, htext, Text.solid_append,
    Text.solid_trim]

/-- The two lines that a line is taken apart into. -/
theorem SplitLine.IsElement.inserts {split : SplitLine} (h : split.IsElement) (layout : Layout) :
    Text.Inserts '|' 1 (Text.solid split.line.text)
      (Text.solid split.bare.text ++ Text.solid (split.piped layout).text) := by
  have hbare : Text.solid split.bare.text = Text.solid split.head := by
    rw [bare, Text.solid_append, solid_of_spaces fun _ => eq_space_of_mem_margin, List.nil_append]
  rw [hbare, piped, solid_pipeLine (fun _ => eq_space_of_mem_margin_indent), h.solid_eq]
  exact Text.Inserts.append (.refl '|' _) (.single '|' _)

/-- A line that is folded after its text was taken from behind the head: both parts stand behind
bars. -/
theorem SplitLine.IsElement.inserts_piped {split : SplitLine} (h : split.IsElement)
    {indent : Text} (hindent : ∀ c ∈ indent, c = ' ') (layout : Layout) :
    Text.Inserts '|' 2 (Text.solid split.line.text)
      (Text.solid (pipeLine split.line.number indent split.head).text ++
        Text.solid (split.piped layout).text) := by
  rw [solid_pipeLine hindent, piped, solid_pipeLine (fun _ => eq_space_of_mem_margin_indent),
    h.solid_eq]
  exact Text.Inserts.append (.single '|' _) (.single '|' _)

theorem inserts_pipes {indent : Text} (h : ∀ c ∈ indent, c = ' ') (below : List NumberedLine) :
    Text.Inserts '|' below.length (below.flatMap fun line => Text.solid line.text)
      ((below.map fun line => pipeLine line.number indent line.content).flatMap
        fun line => Text.solid line.text) := by
  induction below with
  | nil => exact .nil
  | cons line below ih =>
    rw [List.length_cons, Nat.add_comm, List.map_cons, List.flatMap_cons, List.flatMap_cons]
    exact (inserts_pipeLine line.number h line).append ih

/-- A step inserts a bar for each line behind a bar that it creates. -/
theorem Step.IsSound.inserts (h : step.IsSound options) :
    Text.Inserts '|' (step.pipes options.layout).length
      (step.lines.flatMap fun line => Text.solid line.text)
      ((step.written options.layout).flatMap fun line => Text.solid line.text) := by
  cases step with
  | kept line => exact .refl '|' _
  | slashText line =>
    simpa [Step.lines, Step.written, Step.bares, Step.pipes] using
      inserts_pipeLine line.number (fun _ => eq_space_of_mem_margin) line
  | slashBehindHead split =>
    simpa [Step.lines, Step.written, Step.bares, Step.pipes] using
      h.2.isElement.inserts options.layout
  | fold element below last =>
    obtain ⟨-, helement, -, -, hlast⟩ := h
    have hhead := helement.inserts options.layout
    have hindent : ∀ c ∈ element.line.margin ++ options.layout.indent 1, c = ' ' :=
      fun _ => eq_space_of_mem_margin_indent
    have hpipes := hhead.append (inserts_pipes hindent below)
    cases last with
    | none =>
      have hlength : (Step.pipes options.layout (.fold element below none)).length =
          1 + below.length := by simp [Step.pipes, Nat.add_comm]
      rw [hlength]
      simpa [Step.lines, Step.written, Step.bares, Step.pipes] using hpipes
    | some split =>
      have hsplit := (hlast split rfl).2.isElement.inserts_piped hindent options.layout
      have hlength : (Step.pipes options.layout (.fold element below (some split))).length =
          1 + below.length + 2 := by
        simp only [Step.pipes, List.length_append, List.length_cons, List.length_map]
        exact congrArg (· + 2) (Nat.add_comm below.length 1)
      rw [hlength]
      simpa [Step.lines, Step.written, Step.bares, Step.pipes] using hpipes.append hsplit

/-! ## All steps -/

variable {lines written : List NumberedLine} {slashes folds : List Fix} {steps : List Step}

theorem length_flatMap_written (layout : Layout) (steps : List Step) :
    (steps.flatMap (Step.written layout)).length =
      (steps.flatMap Step.lines).length + (steps.flatMap Step.splits).length +
        (steps.flatMap Step.folds).length := by
  induction steps with
  | nil => rfl
  | cons step steps ih =>
    simp only [List.flatMap_cons, List.length_append, ih, Step.length_written]
    omega

theorem inserts_flatMap_written (h : ∀ step ∈ steps, step.IsSound options) :
    Text.Inserts '|' (steps.flatMap (Step.pipes options.layout)).length
      ((steps.flatMap Step.lines).flatMap fun line => Text.solid line.text)
      ((steps.flatMap (Step.written options.layout)).flatMap
        fun line => Text.solid line.text) := by
  induction steps with
  | nil => exact .nil
  | cons step steps ih =>
    obtain ⟨hstep, hsteps⟩ := List.forall_mem_cons.1 h
    simp only [List.flatMap_cons, List.flatMap_append, List.length_append]
    exact hstep.inserts.append (ih hsteps)

/-- A step that creates no line behind a bar keeps a line. -/
theorem Step.pipes_eq_nil_iff (layout : Layout) (step : Step) :
    step.pipes layout = [] ↔ step.slashes = [] ∧ step.folds = [] := by
  cases step with
  | kept line => exact iff_of_true rfl ⟨rfl, rfl⟩
  | slashText line => simp [pipes, slashes]
  | slashBehindHead split => simp [pipes, slashes, splits]
  | fold element below last => simp [pipes, folds]

theorem Step.written_eq_lines (h : step.pipes layout = []) : step.written layout = step.lines := by
  cases step with
  | kept line => rfl
  | slashText line => cases h
  | slashBehindHead split => cases h
  | fold element below last => cases h

/-- Steps report nothing exactly if they create no line behind a bar. -/
theorem IsAccount.fixes_eq_nil_iff (h : IsAccount options lines written slashes folds steps) :
    slashes ++ folds = [] ↔ ∀ step ∈ steps, step.pipes options.layout = [] := by
  rw [← h.slashes_eq, ← h.folds_eq, List.append_eq_nil_iff, List.flatMap_eq_nil_iff,
    List.flatMap_eq_nil_iff]
  simp only [Step.pipes_eq_nil_iff]
  exact ⟨fun hnil step hstep => ⟨hnil.1 step hstep, hnil.2 step hstep⟩,
    fun hnil => ⟨fun step hstep => (hnil step hstep).1, fun step hstep => (hnil step hstep).2⟩⟩

/-- Without a repair the lines are written as they were. -/
theorem IsAccount.written_eq_lines (h : IsAccount options lines written slashes folds steps)
    (hnil : slashes ++ folds = []) : written = lines := by
  rw [← h.written_eq, ← h.lines_eq]
  exact List.flatMap_congr fun step hstep =>
    Step.written_eq_lines (h.fixes_eq_nil_iff.1 hnil step hstep)

theorem Step.lines_ne_nil (step : Step) : step.lines ≠ [] := by
  cases step <;> exact List.cons_ne_nil _ _

/-- Steps write nothing exactly if they take nothing. -/
theorem IsAccount.written_eq_nil_iff (h : IsAccount options lines written slashes folds steps) :
    written = [] ↔ lines = [] := by
  constructor
  · intro hnil
    have hlength := length_flatMap_written options.layout steps
    rw [h.written_eq, hnil, h.lines_eq, List.length_nil] at hlength
    exact List.length_eq_zero_iff.1 (by omega)
  · intro hnil
    have hlines := h.lines_eq
    rw [hnil, List.flatMap_eq_nil_iff] at hlines
    rw [← h.written_eq, List.flatMap_eq_nil_iff]
    exact fun step hstep => absurd (hlines step hstep) step.lines_ne_nil

/-- The lines of the source that were read, each ended by a line feed. -/
def relined (source : Text) : Text :=
  Text.unlines (Text.lines source) ++ ['\n']

theorem unlines_numberFrom (number : Nat) (source : Text) :
    unlines (numberFrom number (Text.lines source)) = relined source := by
  rw [unlines, map_text_numberFrom, relined]

theorem solid_relined (source : Text) : Text.solid (relined source) = Text.solid source := by
  rw [relined, Text.solid_append, Text.solid_unlines, Text.solid_lines]
  exact List.append_nil _

theorem solid_unlines (lines : List NumberedLine) :
    Text.solid (unlines lines) = lines.flatMap fun line => Text.solid line.text := by
  rw [unlines, Text.solid_append, Text.solid_unlines, List.flatMap_map]
  exact List.append_nil _

theorem splitOn_unlines (h : ∀ line ∈ lines, '\n' ∉ line.text) :
    Text.splitOn '\n' (unlines lines) =
      (if lines = [] then [[]] else lines.map (·.text)) ++ [[]] := by
  split
  · next hnil =>
    rw [hnil]
    rfl
  · next hne =>
    rw [unlines, Text.splitOn_unlines (by simpa using hne) (List.forall_mem_map.2 h)]

theorem length_lines_unlines (h : ∀ line ∈ lines, '\n' ∉ line.text) :
    (Text.lines (unlines lines)).length = if lines = [] then 1 else lines.length := by
  split
  · next hnil =>
    rw [hnil]
    rfl
  · next hne =>
    rw [unlines, Text.lines_unlines (by simpa using hne) (List.forall_mem_map.2 h),
      List.length_map, List.length_map]

/-- What steps have to say of a source and its repair. -/
structure IsFaithful (options : RepairOptions) (source : Text) (result : Result)
    (steps : List Step) : Prop where
  /-- Each step is one that the options allow. -/
  isSound : ∀ step ∈ steps, step.IsSound options
  /-- The steps take the lines of the source, one after the other. -/
  lines_eq : steps.flatMap Step.lines = numberFrom 1 (Text.lines source)
  /-- What is reported is what the steps do. -/
  fixes_eq : result.fixes = steps.flatMap Step.slashes ++ steps.flatMap Step.folds
  /-- The result is what the steps write, or one empty line. -/
  splitOn_content : Text.splitOn '\n' result.content =
    (if Text.lines source = [] then [[]]
      else (steps.flatMap (Step.written options.layout)).map (·.text)) ++ [[]]
  /-- A line that is not reported and not part of a fold is kept. -/
  kept : ∀ step ∈ steps, ∀ line ∈ step.lines, .slash line.number ∉ result.fixes →
    step.folds = [] → step = .kept line
  /-- A comment, code, output and text behind a bar are kept. -/
  kept_of_isSigned : ∀ step ∈ steps, ∀ line ∈ step.lines,
    (LineKind.of line.content).isSigned = true → step = .kept line
  /-- But for blanks, a bar is inserted for each line behind a bar that is created. -/
  inserts : Text.Inserts '|' (steps.flatMap (Step.pipes options.layout)).length
    (Text.solid source) (Text.solid result.content)
  /-- There is one line more for each text that is taken from behind a head or folded. -/
  length_lines : (Text.lines result.content).length =
    if Text.lines source = [] then 1
    else (Text.lines source).length + (steps.flatMap Step.splits).length +
      (steps.flatMap Step.folds).length
  /-- A change is reported exactly if there is one. -/
  isChanged_iff : result.isChanged = true ↔ result.content ≠ relined source

/-- Steps that account for the lines of a source are faithful. -/
theorem IsAccount.isFaithful {source : Text} (h : IsAccount options
      (numberFrom 1 (Text.lines source)) written slashes folds steps)
    (hlf : ∀ line ∈ written, '\n' ∉ line.text) :
    IsFaithful options source ⟨unlines written, slashes ++ folds, options.previewOnly⟩ steps := by
  have htexts : (steps.flatMap Step.lines).map (·.text) = Text.lines source := by
    rw [h.lines_eq, map_text_numberFrom]
  have hnil : written = [] ↔ Text.lines source = [] := by
    rw [← htexts, List.map_eq_nil_iff, h.lines_eq]
    exact h.written_eq_nil_iff
  have hinserts : Text.Inserts '|' (steps.flatMap (Step.pipes options.layout)).length
      (Text.solid source) (Text.solid (unlines written)) := by
    have hall := inserts_flatMap_written h.isSound
    rwa [h.written_eq, h.lines_eq, ← solid_unlines, ← solid_unlines, unlines_numberFrom,
      solid_relined] at hall
  refine ⟨h.isSound, h.lines_eq, ?_, ?_, ?_, ?_, hinserts, ?_, ?_⟩
  · rw [h.slashes_eq, h.folds_eq]
  · rw [splitOn_unlines hlf, h.written_eq]
    simp only [hnil]
  · intro step hstep line hline hslash hfolds
    refine Step.eq_kept hline (fun hmem => hslash ?_) hfolds
    rw [← h.slashes_eq]
    exact List.mem_append_left _ (List.mem_flatMap.2 ⟨step, hstep, hmem⟩)
  · exact fun step hstep line hline => (h.isSound step hstep).eq_kept hline
  · rw [length_lines_unlines hlf, ← h.written_eq, length_flatMap_written, h.written_eq, ← htexts,
      List.length_map]
    simp only [hnil, htexts]
  · have hchanged : (Result.isChanged ⟨unlines written, slashes ++ folds, options.previewOnly⟩ =
        true) ↔ slashes ++ folds ≠ [] := by
      simp [Result.isChanged]
    rw [hchanged, not_iff_not]
    constructor
    · intro hfixes
      rw [h.written_eq_lines hfixes, unlines_numberFrom]
    · -- Each line behind a bar that was created would make the text longer, blanks left out.
      intro hsame
      have hlength := hinserts.length_eq
      rw [show unlines written = relined source from hsame, solid_relined] at hlength
      have hpipes : steps.flatMap (Step.pipes options.layout) = [] :=
        List.length_eq_zero_iff.1 (by omega)
      exact h.fixes_eq_nil_iff.2 (List.flatMap_eq_nil_iff.1 hpipes)

end Repair

/-- Every repair is made of steps that account for each line of the source. -/
theorem repair_isFaithful (options : RepairOptions) (source : Text) :
    ∃ steps, Repair.IsFaithful options source (repair options source) steps := by
  obtain ⟨steps, slashes, folds, haccount, hfixes⟩ :=
    Repair.exists_isAccount options (Repair.numberFrom 1 (Text.lines source))
  refine ⟨steps, ?_⟩
  rw [Repair.repair_eq, hfixes]
  refine haccount.isFaithful ?_
  have hlines : ∀ line ∈ Repair.numberFrom 1 (Text.lines source), '\n' ∉ line.text := by
    intro line hline
    have htext : line.text ∈ (Repair.numberFrom 1 (Text.lines source)).map (·.text) :=
      List.mem_map_of_mem hline
    rw [Repair.map_text_numberFrom] at htext
    exact Text.lineFeed_not_mem_of_mem_lines htext
  exact Repair.not_mem_settle (by decide) (by decide) hlines

end SlimTemplate
