import SlimTemplate.Proofs.Repair.Idempotent

/-!
# Repairs confined to some lines

A repair starts at a line of its own or not at all, and what it does to the lines before a line
does not show to that line. So where neither repair starts at any other line, all repairs are
reported for the lines at which one may start.

## Main definitions

* `Repair.Fix.number`: the line for which a repair is reported.
* `Repair.IsConfined`: the lines at which no repair starts but for some.

## Main statements

* `Repair.IsConfined.may_number`: repairs are reported for those lines only.
-/

namespace SlimTemplate.Repair

variable {layout : Layout} {options : RepairOptions} {lines : List NumberedLine}
  {may : Nat → Prop}

/-- The number of the line for which a repair is reported. -/
def Fix.number : Fix → Nat
  | slash number => number
  | multiline number => number

/-- No text over several lines starts at a line but for those where it may. -/
def IsFoldedBut (may : Nat → Prop) (lines : List NumberedLine) : Prop :=
  lines.IsChain fun line next =>
    may line.number ∨ headAndText? line.content = none ∨
      isTextBelow line.margin.length next = false

/-- No repair starts at a line but for those where it may. -/
structure IsConfined (may : Nat → Prop) (lines : List NumberedLine) : Prop where
  slashes : ∀ line ∈ lines, may line.number ∨
    slashBehindHead? line.content = none ∧ isSlashText line.content = false
  multiline : IsFoldedBut may lines

theorem may_number_of_mem_pipeSlashes {fix : Fix}
    (h : ∀ line ∈ lines, may line.number ∨
      slashBehindHead? line.content = none ∧ isSlashText line.content = false)
    (hfix : fix ∈ (pipeSlashes layout lines).2) : may fix.number := by
  induction lines with
  | nil => cases hfix
  | cons line lines ih =>
    obtain ⟨hline, hlines⟩ := List.forall_mem_cons.1 h
    rw [pipeSlashes] at hfix
    cases hrepaired : pipeSlash? layout line with
    | none =>
      rw [hrepaired] at hfix
      exact ih hlines hfix
    | some repaired =>
      rw [hrepaired] at hfix
      rcases List.mem_cons.1 hfix with rfl | hfix
      · refine hline.resolve_right fun hquiet => ?_
        rw [pipeSlash?_eq_none_iff.2 hquiet] at hrepaired
        cases hrepaired
      · exact ih hlines hfix

/-- Repairing slashes does not change what the first line is to a line before it. -/
theorem isTextBelow_head?_pipeSlashes (depth : Nat) (layout : Layout)
    (lines : List NumberedLine) :
    (pipeSlashes layout lines).1.head?.map (isTextBelow depth) =
      lines.head?.map (isTextBelow depth) := by
  cases lines with
  | nil => rfl
  | cons line lines =>
    rw [pipeSlashes]
    cases hrepaired : pipeSlash? layout line with
    | none => rfl
    | some repaired =>
      rcases pipeSlash?_eq_some hrepaired with ⟨head, text, -, hhead, rfl⟩ | ⟨-, hslash, rfl⟩
      · exact congrArg some (isTextBelow_bare depth hhead)
      · -- Neither the slash before the repair nor the bar after it is text.
        obtain ⟨rest, hcontent⟩ := List.head?_eq_some_iff.1 hslash
        have hsign : startsWithSign line.content = true := by
          rw [hcontent]
          rfl
        refine congrArg some ?_
        rw [isTextBelow_of_startsWithSign hsign]
        exact isTextBelow_of_bar (head?_content_pipeLine (fun _ => eq_space_of_mem_margin) _) depth

theorem IsFoldedBut.pipeSlashes (layout : Layout) (h : IsFoldedBut may lines) :
    IsFoldedBut may (pipeSlashes layout lines).1 := by
  induction lines with
  | nil => exact List.IsChain.nil
  | cons line lines ih =>
    obtain ⟨hline, hlines⟩ := List.isChain_cons.1 h
    rw [Repair.pipeSlashes]
    cases hrepaired : pipeSlash? layout line with
    | none =>
      refine List.isChain_cons.2 ⟨fun next hnext => ?_, ih hlines⟩
      have hbelow := isTextBelow_head?_pipeSlashes line.margin.length layout lines
      rw [Option.mem_def.1 hnext, Option.map_some] at hbelow
      obtain ⟨second, hsecond, htext⟩ := Option.map_eq_some_iff.1 hbelow.symm
      rw [← htext]
      exact hline second hsecond
    | some repaired =>
      have hwritten := isWritten_of_mem_pipeSlash? hrepaired
      refine List.isChain_append.2 ⟨?_, ih hlines, fun last hlast next _ => ?_⟩
      · rcases pipeSlash?_eq_some hrepaired with ⟨head, text, -, hhead, rfl⟩ | ⟨-, -, rfl⟩
        · refine List.isChain_cons.2 ⟨fun next _ => ?_, List.IsChain.singleton _⟩
          exact Or.inr (Or.inl (hwritten _ List.mem_cons_self).headAndText?_eq_none)
        · exact List.IsChain.singleton _
      · have hmem := List.mem_of_getLast? (Option.mem_def.1 hlast)
        exact Or.inr (Or.inl (hwritten last hmem).headAndText?_eq_none)

theorem IsFoldedBut.may_number {fix : Fix} (h : IsFoldedBut may lines)
    (hfix : fix ∈ (pipeMultiline layout lines).2) : may fix.number := by
  fun_induction pipeMultiline layout lines with
  | case1 => cases hfix
  | case2 line lines hnone rest fixes hrest ih =>
    rw [hrest] at ih
    exact ih (List.isChain_cons.1 h).2 hfix
  | case3 line lines head text hsome below hbelow rest fixes hrest ih =>
    rw [hrest] at ih
    exact ih (List.isChain_cons.1 h).2 hfix
  | case4 line lines head text hsome below hbelow indent rest fixes hrest ih =>
    rw [hrest] at ih
    obtain ⟨hline, hlines⟩ := List.isChain_cons.1 h
    rcases List.mem_cons.1 hfix with rfl | hfix
    · -- The element is followed by text below it, so a repair may start there.
      cases lines with
      | nil => exact absurd rfl hbelow
      | cons second lines =>
        rcases hline second rfl with hmay | hnone | htext
        · exact hmay
        · exact absurd (hnone.symm.trans hsome) (by simp)
        · exact absurd (by simp [below, htext]) hbelow
    · exact ih (hlines.suffix (List.dropWhile_suffix _)) hfix

/-- Repairs are reported for those lines only where one may start. -/
theorem IsConfined.may_number {fix : Fix} (h : IsConfined may lines)
    (hfix : fix ∈ (settle options lines).2) : may fix.number := by
  rw [settle] at hfix
  rcases List.mem_append.1 hfix with hfix | hfix
  · split at hfix
    · exact may_number_of_mem_pipeSlashes h.slashes hfix
    · cases hfix
  · split at hfix
    · refine IsFoldedBut.may_number ?_ hfix
      split
      · exact h.multiline.pipeSlashes options.layout
      · exact h.multiline
    · cases hfix

end SlimTemplate.Repair
