import Mathlib.Data.List.Chain
import SlimTemplate.Proofs.Repair.Written
import SlimTemplate.Proofs.Text.Lines

/-!
# Repairing twice

What a repair leaves behind is settled: no text starts with a slash, and no element with text has
a line of text below. Settled lines are not repaired, and whether lines are settled shows in their
texts alone, so a repaired source stays as it is when it is read and repaired again.

## Main definitions

* `Repair.IsSlashFree`, `Repair.IsFolded`: the lines at which neither repair starts.
* `Repair.IsSettled`: the lines at which none of the chosen repairs starts.

## Main statements

* `Repair.isSettled_settle`: repaired lines are settled.
* `Repair.settle_of_isSettled`: settled lines are not repaired.
* `repair_repair`: the second repair of a source finds nothing to do.
-/

namespace SlimTemplate

namespace Repair

variable {layout : Layout} {options : RepairOptions} {lines lines' : List NumberedLine}
  {line : NumberedLine}

/-! ## Text that starts with a slash -/

/-- No text in the lines starts with a slash. -/
def IsSlashFree (lines : List NumberedLine) : Prop :=
  ∀ line ∈ lines, slashBehindHead? line.content = none ∧ isSlashText line.content = false

/-- Where a line is repaired, the new lines stand for it. -/
theorem isWritten_of_mem_pipeSlash? {repaired : List NumberedLine}
    (h : pipeSlash? layout line = some repaired) : ∀ new ∈ repaired, IsWritten line new := by
  intro new hnew
  rcases pipeSlash?_eq_some h with ⟨head, text, -, hhead, rfl⟩ | ⟨-, -, rfl⟩
  · rcases List.mem_pair.1 hnew with rfl | rfl
    · exact IsWritten.bare hhead
    · exact IsWritten.piped (fun _ => eq_space_of_mem_margin_indent)
        ((infix_of_headAndText? hhead).trans (content_isInfix line))
  · rw [List.mem_singleton.1 hnew]
    exact IsWritten.piped (fun _ => eq_space_of_mem_margin) (content_isInfix line)

/-- A line after the repair of slashes stands for one before it and needs no such repair. -/
theorem mem_pipeSlashes (h : line ∈ (pipeSlashes layout lines).1) :
    StandsFor lines line ∧ pipeSlash? layout line = none := by
  induction lines with
  | nil => exact absurd h (by simp [pipeSlashes])
  | cons first lines ih =>
    have hrest : line ∈ (pipeSlashes layout lines).1 →
        StandsFor (first :: lines) line ∧ pipeSlash? layout line = none := by
      intro hmem
      obtain ⟨hfor, hnone⟩ := ih hmem
      exact ⟨hfor.mono (List.subset_cons_self first lines), hnone⟩
    rw [pipeSlashes] at h
    cases hfirst : pipeSlash? layout first with
    | some repaired =>
      rw [hfirst] at h
      rcases List.mem_append.1 h with h | h
      · have hwritten := isWritten_of_mem_pipeSlash? hfirst line h
        exact ⟨StandsFor.written List.mem_cons_self hwritten, hwritten.pipeSlash?_eq_none⟩
      · exact hrest h
    | none =>
      rw [hfirst] at h
      rcases List.mem_cons.1 h with rfl | h
      · exact ⟨StandsFor.kept List.mem_cons_self, hfirst⟩
      · exact hrest h

theorem isSlashFree_pipeSlashes (layout : Layout) (lines : List NumberedLine) :
    IsSlashFree (pipeSlashes layout lines).1 := by
  intro line hline
  exact pipeSlash?_eq_none_iff.1 (mem_pipeSlashes hline).2

theorem pipeSlashes_of_isSlashFree (h : IsSlashFree lines) :
    pipeSlashes layout lines = (lines, []) := by
  induction lines with
  | nil => rfl
  | cons line lines ih =>
    have hline : pipeSlash? layout line = none := pipeSlash?_eq_none_iff.2 (h _ List.mem_cons_self)
    have hlines : IsSlashFree lines := fun l hl => h l (List.mem_cons_of_mem _ hl)
    rw [pipeSlashes, ih hlines, hline]

/-! ## Text over several lines -/

/-- No element with text has a line of text below. -/
def IsFolded (lines : List NumberedLine) : Prop :=
  lines.IsChain fun line next =>
    headAndText? line.content = none ∨ isTextBelow line.margin.length next = false

/-- The lines that an element with text below becomes stand for its line and for those below. -/
theorem isWritten_of_mem_fold {first : NumberedLine} {head text indent : Text}
    {below : List NumberedLine} (hsome : headAndText? first.content = some (head, text))
    (hindent : ∀ c ∈ indent, c = ' ')
    (h : line ∈ ⟨first.number, first.margin ++ head⟩ :: pipeLine first.number indent text ::
      below.map fun l => pipeLine l.number indent l.content) :
    ∃ source ∈ first :: below, IsWritten source line := by
  rcases List.mem_cons.1 h with rfl | h
  · exact ⟨first, List.mem_cons_self, IsWritten.bare hsome⟩
  rcases List.mem_cons.1 h with rfl | h
  · have htext := (infix_of_headAndText? hsome).trans (content_isInfix first)
    exact ⟨first, List.mem_cons_self, IsWritten.piped hindent htext⟩
  · obtain ⟨source, hsource, rfl⟩ := List.mem_map.1 h
    exact ⟨source, List.mem_cons_of_mem _ hsource,
      IsWritten.piped hindent (content_isInfix source)⟩

/-- A line after the repair of text over several lines stands for one before it. -/
theorem standsFor_of_mem_pipeMultiline (h : line ∈ (pipeMultiline layout lines).1) :
    StandsFor lines line := by
  fun_induction pipeMultiline layout lines with
  | case1 => exact StandsFor.kept h
  | case2 first lines hnone rest fixes hrest ih =>
    rw [hrest] at ih
    rcases List.mem_cons.1 h with rfl | h
    · exact StandsFor.kept List.mem_cons_self
    · exact (ih h).mono (List.subset_cons_self first lines)
  | case3 first lines head text hsome below hbelow rest fixes hrest ih =>
    rw [hrest] at ih
    rcases List.mem_cons.1 h with rfl | h
    · exact StandsFor.kept List.mem_cons_self
    · exact (ih h).mono (List.subset_cons_self first lines)
  | case4 first lines head text hsome below hbelow indent rest fixes hrest ih =>
    rw [hrest] at ih
    have hbelow' : first :: below ⊆ first :: lines :=
      List.cons_subset_cons first (List.takeWhile_sublist _).subset
    have hdrop : lines.dropWhile (isTextBelow first.margin.length) ⊆ first :: lines :=
      List.subset_cons_of_subset _ (List.dropWhile_sublist _).subset
    rcases List.mem_append.1 h with h | h
    · obtain ⟨source, hsource, hwritten⟩ :=
        isWritten_of_mem_fold hsome (fun _ => eq_space_of_mem_margin_indent) h
      exact StandsFor.written (hbelow' hsource) hwritten
    · exact (ih h).mono hdrop

/-- The repair of text over several lines brings no slash to the start of a text. -/
theorem isSlashFree_pipeMultiline (layout : Layout) (h : IsSlashFree lines) :
    IsSlashFree (pipeMultiline layout lines).1 := by
  intro line hline
  cases standsFor_of_mem_pipeMultiline hline with
  | kept hmem => exact h line hmem
  | written hsource hwritten =>
    exact pipeSlash?_eq_none_iff.1 (hwritten.pipeSlash?_eq_none : pipeSlash? layout line = none)

/-- The repair does not change what the first line is to a line before it. -/
theorem isTextBelow_head?_pipeMultiline (depth : Nat) (layout : Layout)
    (lines : List NumberedLine) :
    (pipeMultiline layout lines).1.head?.map (isTextBelow depth) =
      lines.head?.map (isTextBelow depth) := by
  fun_cases pipeMultiline layout lines with
  | case1 => rfl
  | case2 => rfl
  | case3 => rfl
  | case4 first lines head text hsome =>
    rw [List.cons_append, List.head?_cons, List.head?_cons, Option.map_some, Option.map_some,
      isTextBelow_bare depth hsome]

theorem isFolded_append (hall : ∀ line ∈ lines, headAndText? line.content = none)
    (h : IsFolded lines') : IsFolded (lines ++ lines') := by
  induction lines with
  | nil => exact h
  | cons line lines ih =>
    have hlines : IsFolded (lines ++ lines') :=
      ih fun l hl => hall l (List.mem_cons_of_mem _ hl)
    exact List.isChain_cons.2 ⟨fun _ _ => Or.inl (hall line List.mem_cons_self), hlines⟩

theorem isFolded_pipeMultiline (layout : Layout) (lines : List NumberedLine) :
    IsFolded (pipeMultiline layout lines).1 := by
  fun_induction pipeMultiline layout lines with
  | case1 => exact List.IsChain.nil
  | case2 first lines hnone rest fixes hrest ih =>
    rw [hrest] at ih
    exact List.isChain_cons.2 ⟨fun _ _ => Or.inl hnone, ih⟩
  | case3 first lines head text hsome below hbelow rest fixes hrest ih =>
    -- The line behind `first` may have been written anew, but it is no more text than before.
    have hnext := isTextBelow_head?_pipeMultiline first.margin.length layout lines
    rw [hrest] at ih hnext
    refine List.isChain_cons.2 ⟨?_, ih⟩
    intro next hhead
    right
    rw [Option.mem_def.1 hhead, Option.map_some] at hnext
    cases lines with
    | nil => exact absurd hnext (by simp)
    | cons second lines =>
      rw [List.head?_cons, Option.map_some, Option.some.injEq] at hnext
      rw [hnext]
      by_contra htext
      rw [Bool.not_eq_false] at htext
      exact absurd hbelow (by simp [below, htext])
  | case4 first lines head text hsome below hbelow indent rest fixes hrest ih =>
    rw [hrest] at ih
    refine isFolded_append ?_ ih
    intro line hline
    obtain ⟨source, -, hwritten⟩ :=
      isWritten_of_mem_fold hsome (fun _ => eq_space_of_mem_margin_indent) hline
    exact hwritten.headAndText?_eq_none

theorem pipeMultiline_of_isFolded (h : IsFolded lines) :
    pipeMultiline layout lines = (lines, []) := by
  fun_induction pipeMultiline layout lines with
  | case1 => rfl
  | case2 first lines hnone rest fixes hrest ih =>
    rw [ih (List.isChain_cons.1 h).2, Prod.mk.injEq] at hrest
    rw [hrest.1, hrest.2]
  | case3 first lines head text hsome below hbelow rest fixes hrest ih =>
    rw [ih (List.isChain_cons.1 h).2, Prod.mk.injEq] at hrest
    rw [hrest.1, hrest.2]
  | case4 first lines head text hsome below hbelow =>
    -- The next line is no text below, so there is nothing to fold.
    exfalso
    apply hbelow
    cases lines with
    | nil => rfl
    | cons second lines =>
      rcases (List.isChain_cons.1 h).1 second rfl with hnone | htext
      · exact absurd (hnone.symm.trans hsome) (by simp)
      · simp [below, htext]

/-! ## Settled lines -/

/-- None of the chosen repairs starts at the lines. -/
structure IsSettled (options : RepairOptions) (lines : List NumberedLine) : Prop where
  slashes : options.slashes = true → IsSlashFree lines
  multiline : options.multiline = true → IsFolded lines

/-- Lines after the chosen repairs, and the repairs. -/
def settle (options : RepairOptions) (lines : List NumberedLine) : List NumberedLine × List Fix :=
  let slashes := if options.slashes then pipeSlashes options.layout lines else (lines, [])
  let folds :=
    if options.multiline then pipeMultiline options.layout slashes.1 else (slashes.1, [])
  (folds.1, slashes.2 ++ folds.2)

theorem repair_eq (options : RepairOptions) (source : Text) :
    repair options source =
      ⟨unlines (settle options (numberFrom 1 (Text.lines source))).1,
        (settle options (numberFrom 1 (Text.lines source))).2, options.previewOnly⟩ :=
  rfl

/-- Repaired lines are settled: the second repair undoes nothing that the first one did. -/
theorem isSettled_settle (options : RepairOptions) (lines : List NumberedLine) :
    IsSettled options (settle options lines).1 := by
  constructor
  · intro hslashes
    have hfree := isSlashFree_pipeSlashes options.layout lines
    cases hmultiline : options.multiline with
    | false => simpa [settle, hslashes, hmultiline] using hfree
    | true =>
      simpa [settle, hslashes, hmultiline] using isSlashFree_pipeMultiline options.layout hfree
  · intro hmultiline
    rw [settle, hmultiline]
    exact isFolded_pipeMultiline _ _

theorem settle_of_isSettled (h : IsSettled options lines) : settle options lines = (lines, []) := by
  have hslashes : (if options.slashes then pipeSlashes options.layout lines else (lines, [])) =
      (lines, []) := by
    split
    · next hoption => exact pipeSlashes_of_isSlashFree (h.slashes hoption)
    · rfl
  have hfolds : (if options.multiline then pipeMultiline options.layout lines else (lines, [])) =
      (lines, []) := by
    split
    · next hoption => exact pipeMultiline_of_isFolded (h.multiline hoption)
    · rfl
  rw [settle, hslashes, hfolds]
  rfl

theorem not_mem_settle {c : Char} (hspace : c ≠ ' ') (hbar : c ≠ '|')
    (h : ∀ line ∈ lines, c ∉ line.text) : ∀ line ∈ (settle options lines).1, c ∉ line.text := by
  have hslashes : ∀ line ∈
      (if options.slashes then pipeSlashes options.layout lines else (lines, [])).1,
      c ∉ line.text := by
    split
    · exact not_mem_of_standsFor hspace hbar h fun _ hline => (mem_pipeSlashes hline).1
    · exact h
  rw [settle]
  split
  · exact not_mem_of_standsFor hspace hbar hslashes fun _ hline =>
      standsFor_of_mem_pipeMultiline hline
  · exact hslashes

/-- A repair breaks no line. -/
theorem isUnbroken_settle (h : IsUnbroken lines) : IsUnbroken (settle options lines).1 :=
  fun line hline =>
    ⟨not_mem_settle (by decide) (by decide) (fun l hl => (h l hl).1) line hline,
      not_mem_settle (by decide) (by decide) (fun l hl => (h l hl).2) line hline⟩

/-- The numbers of lines do not matter for whether they are settled. -/
theorem IsSettled.of_map_text_eq (h : IsSettled options lines)
    (htext : lines.map (·.text) = lines'.map (·.text)) : IsSettled options lines' := by
  constructor
  · intro hoption
    have hfree : ∀ text ∈ lines.map (·.text), slashBehindHead? (Text.trim text) = none ∧
        isSlashText (Text.trim text) = false := List.forall_mem_map.2 (h.slashes hoption)
    rw [htext] at hfree
    exact List.forall_mem_map.1 hfree
  · intro hoption
    -- The relation reads the texts of two lines, so it can be said of the texts.
    have hfolded : (lines.map (·.text)).IsChain fun text next =>
        headAndText? (Text.trim text) = none ∨
          isTextBelow (NumberedLine.mk 0 text).margin.length ⟨0, next⟩ = false :=
      (List.isChain_map _).2 (h.multiline hoption)
    rw [htext] at hfolded
    exact (List.isChain_map _).1 hfolded

theorem map_text_numberFrom (number : Nat) (texts : List Text) :
    (numberFrom number texts).map (·.text) = texts := by
  induction texts generalizing number with
  | nil => rfl
  | cons text texts ih => rw [numberFrom, List.map_cons, ih]

theorem isUnbroken_numberFrom (number : Nat) {texts : List Text}
    (h : ∀ text ∈ texts, '\n' ∉ text ∧ '\r' ∉ text) : IsUnbroken (numberFrom number texts) := by
  rw [← map_text_numberFrom number texts] at h
  exact List.forall_mem_map.1 h

theorem repair_unlines_of_ne_nil (hne : lines ≠ []) (hunbroken : IsUnbroken lines)
    (h : IsSettled options lines) :
    repair options (unlines lines) = ⟨unlines lines, [], options.previewOnly⟩ := by
  have hread : Text.lines (unlines lines) = lines.map (·.text) :=
    Text.lines_unlines_of_not_mem (mt List.map_eq_nil_iff.1 hne) (List.forall_mem_map.2 hunbroken)
  have htext := map_text_numberFrom 1 (lines.map (·.text))
  rw [repair_eq, hread, settle_of_isSettled (h.of_map_text_eq htext.symm), unlines, htext]
  rfl

/-- A source without lines is written as one empty line, which is settled. -/
theorem isSettled_empty (options : RepairOptions) : IsSettled options [⟨1, []⟩] := by
  constructor
  · intro _ line hline
    rw [List.mem_singleton.1 hline]
    decide
  · intro _
    exact List.IsChain.singleton _

theorem isUnbroken_empty : IsUnbroken [⟨1, []⟩] := by
  intro line hline
  rw [List.mem_singleton.1 hline]
  decide

/-- Settled lines are read back from their text and stay as they are. -/
theorem repair_unlines (hunbroken : IsUnbroken lines) (h : IsSettled options lines) :
    repair options (unlines lines) = ⟨unlines lines, [], options.previewOnly⟩ := by
  cases lines with
  | nil =>
    show repair options (unlines [⟨1, []⟩]) = ⟨unlines [⟨1, []⟩], [], options.previewOnly⟩
    exact repair_unlines_of_ne_nil (List.cons_ne_nil _ _) isUnbroken_empty (isSettled_empty options)
  | cons line lines => exact repair_unlines_of_ne_nil (List.cons_ne_nil line lines) hunbroken h

end Repair

/-- The second repair of a source finds nothing to do: it makes no repairs, reports no change and
returns the source that the first one wrote. -/
theorem repair_repair (options : RepairOptions) (source : Text)
    (h : Text.ReturnsEndLines source) :
    (repair options (repair options source).content).fixes = [] ∧
      (repair options (repair options source).content).isChanged = false ∧
      (repair options (repair options source).content).content =
        (repair options source).content := by
  have hlines : ∀ line ∈ Text.lines source, '\n' ∉ line ∧ '\r' ∉ line := fun line hline =>
    ⟨Text.lineFeed_not_mem_of_mem_lines hline, Text.return_not_mem_of_mem_lines h hline⟩
  have hunbroken : Repair.IsUnbroken
      (Repair.settle options (Repair.numberFrom 1 (Text.lines source))).1 :=
    Repair.isUnbroken_settle (Repair.isUnbroken_numberFrom 1 hlines)
  have hsettled := Repair.isSettled_settle options (Repair.numberFrom 1 (Text.lines source))
  rw [Repair.repair_eq options source, Repair.repair_unlines hunbroken hsettled]
  exact ⟨rfl, rfl, rfl⟩

/-- Both repairs in one source whose lines end in two ways, and nothing left for a second time. -/
theorem repair_repair_mixed :
    (repair .standard "a[x='/'] /home\r\np one\r\n  two\n/end".toList).content =
        "a[x='/']\n  | /home\np\n  | one\n  | two\n| /end\n".toList ∧
      (repair .standard (repair .standard
        "a[x='/'] /home\r\np one\r\n  two\n/end".toList).content).fixes = [] :=
  ⟨by decide +kernel, (repair_repair .standard _ (by decide)).1⟩

end SlimTemplate
