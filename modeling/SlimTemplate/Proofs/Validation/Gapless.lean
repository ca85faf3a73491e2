import SlimTemplate.Proofs.Line.Ancestor
import SlimTemplate.Proofs.Validation.Jump

/-!
# Gapless trees

The check of levels keeps a stack of open levels, but its top is always the level of the line
before. So a line is reported exactly if it is more than one level deeper than that one. Small as
the step is that it looks at, the check decides a property of the whole tree: nothing is reported
exactly if every line below the margin has a parent one level above it.

## Main definitions

* `LineTree.allowedAt`: the deepest level that the line at a place may have.
* `LineTree.jumpAt?`: what is found at a place whose line is deeper.
* `LineTree.IsGapless`: a tree in which no level is left out between a line and its parent.
* `Report.jumps`: the lines that are reported as too deep.

## Main statements

* `LineTree.isGapless_iff`: a tree has no gap exactly if no line is deeper than it may be.
* `jumps_validate`: which lines are reported, and when none is.
-/

namespace SlimTemplate

open Validation

variable {tree : LineTree} {opened : List Nat} {lines : List SlimLine} {i : Nat}

/-- The lines that are reported as too deep, in order. -/
def Report.jumps (report : Report) : List Finding :=
  report.errors.filter Finding.isJump

namespace LineTree

/-- The deepest level that the line at a place may have: one more than the line before it has, and
the margin for the first line. -/
def allowedAt (tree : LineTree) : Nat → Nat
  | 0 => 0
  | i + 1 => tree.levelAt i + 1

/-- What is found at a place if the line there is deeper than it may be. -/
def jumpAt? (tree : LineTree) (i : Nat) : Option Finding :=
  tree.lines[i]?.bind fun line =>
    if tree.allowedAt i < line.level then
      some (.inLine line.number (.indentJump (tree.allowedAt i) line.level))
    else none

/-- Every line stands at the margin or exactly one level below its parent. -/
def IsGapless (tree : LineTree) : Prop :=
  ∀ i < tree.lines.length, tree.levelAt i = 0 ∨
    ∃ p, tree.parent? i = some p ∧ tree.levelAt i = tree.levelAt p + 1

/-! ## Local steps and parents -/

/-- Below the margin the first line is shallower, so that there is a parent. -/
theorem exists_parent?_of_allowed (hi : i < tree.lines.length)
    (h : ∀ m ≤ i, tree.levelAt m ≤ tree.allowedAt m) (hlevel : tree.levelAt i ≠ 0) :
    ∃ p, tree.parent? i = some p ∧ tree.levelAt i = tree.levelAt p + 1 := by
  have hfirst : tree.levelAt 0 = 0 := Nat.le_zero.1 (h 0 (Nat.zero_le i))
  have hpos : 0 < i := Nat.pos_of_ne_zero fun hzero => hlevel (hzero ▸ hfirst)
  have hlower : tree.levelAt 0 < tree.levelAt i := by omega
  obtain ⟨p, hp, hshallow, hbetween⟩ := exists_nearest ⟨0, hpos, hlower⟩
  refine ⟨p, parent?_of_nearest hi hp hshallow hbetween, ?_⟩
  -- The line right behind the parent is no shallower than the line, and it is allowed there.
  have hstep : tree.levelAt (p + 1) ≤ tree.levelAt p + 1 := h (p + 1) hp
  have hbehind : tree.levelAt i ≤ tree.levelAt (p + 1) := by
    rcases (Nat.succ_le_of_lt hp).eq_or_lt with rfl | hlt
    · exact le_rfl
    · exact hbetween (p + 1) (Nat.lt_succ_self p) hlt
  omega

/-- A line one level below its parent is no deeper than the line before it allows. -/
theorem levelAt_le_allowedAt_of_parent? {p : Nat} (h : tree.parent? i = some p)
    (hlevel : tree.levelAt i = tree.levelAt p + 1) : tree.levelAt i ≤ tree.allowedAt i := by
  obtain ⟨-, hp, -, hbetween⟩ := parent?_eq_some_iff.1 h
  cases i with
  | zero => exact absurd hp (Nat.not_lt_zero p)
  | succ j =>
    rw [allowedAt]
    rcases (Nat.lt_succ_iff.1 hp).eq_or_lt with rfl | hpj
    · exact hlevel.le
    · exact (hbetween j hpj (Nat.lt_succ_self j)).trans (Nat.le_succ _)

theorem isGapless_iff :
    tree.IsGapless ↔ ∀ i < tree.lines.length, tree.levelAt i ≤ tree.allowedAt i := by
  constructor
  · intro h i hi
    rcases h i hi with hzero | ⟨p, hparent, hlevel⟩
    · exact hzero.le.trans (Nat.zero_le _)
    · exact levelAt_le_allowedAt_of_parent? hparent hlevel
  · intro h i hi
    by_cases hzero : tree.levelAt i = 0
    · exact Or.inl hzero
    · exact Or.inr (exists_parent?_of_allowed hi (fun m hm => h m (hm.trans_lt hi)) hzero)

theorem jumpAt?_eq_none_iff (hi : i < tree.lines.length) :
    tree.jumpAt? i = none ↔ tree.levelAt i ≤ tree.allowedAt i := by
  have hline := List.getElem?_eq_getElem hi
  rw [jumpAt?, hline, levelAt_of_getElem? hline]
  simp

end LineTree

/-! ## Reported lines -/

namespace Validation

theorem filter_isJump_findings (options : ValidationOptions) (line : SlimLine) :
    (Check.findings Check.errorChecks options line).filter Finding.isJump = [] :=
  List.filter_eq_nil_iff.2 fun finding hfinding =>
    List.any_eq_false.1 (any_isJump_findings options line) finding hfinding

theorem filter_isJump_jump? (line : SlimLine) :
    ((jump? opened line).toList.map (.inLine line.number)).filter Finding.isJump =
      (jump? opened line).toList.map (.inLine line.number) := by
  rw [jump?]
  split <;> rfl

/-- From a place on, the lines that are reported are those that are deeper than allowed, if the
innermost open level there is that of the line before. -/
theorem filter_isJump_errorsFrom (options : ValidationOptions)
    (hallowed : allowedLevel opened = tree.allowedAt i) (hlines : tree.lines.drop i = lines) :
    (errorsFrom options opened lines).filter Finding.isJump =
      (List.range' i lines.length).filterMap tree.jumpAt? := by
  induction lines generalizing i opened with
  | nil => rfl
  | cons line lines ih =>
    have hline := LineTree.getElem?_of_drop hlines
    have hnext : allowedLevel (openLevels line.level opened) = tree.allowedAt (i + 1) := by
      rw [allowedLevel_openLevels, LineTree.allowedAt, LineTree.levelAt_of_getElem? hline]
    have hjump : (jump? opened line).map (.inLine line.number) = tree.jumpAt? i := by
      rw [LineTree.jumpAt?, hline, jump?, hallowed, Option.bind_some]
      split <;> rfl
    rw [errorsFrom, List.filter_append, List.filter_append, filter_isJump_jump?,
      filter_isJump_findings, List.append_nil, ih hnext (LineTree.drop_succ_of_drop hlines),
      List.length_cons, List.range'_succ, List.filterMap_cons, ← hjump]
    cases jump? opened line <;> rfl

end Validation

/-- The lines that are reported as too deep are, in order, those that are more than one level
deeper than the line before them, or not at the margin if they come first; each is reported with
the deepest level it may have and the level it has. There are none exactly if every line stands at
the margin or one level below its parent. -/
theorem jumps_validate (options : ValidationOptions) (source : Text) :
    let tree := LineTree.ofSource options.layout source
    (validate options source).jumps =
      (List.range tree.lines.length).filterMap tree.jumpAt? ∧
    ((validate options source).jumps = [] ↔ tree.IsGapless) := by
  intro tree
  have hjumps : (validate options source).jumps =
      (List.range tree.lines.length).filterMap tree.jumpAt? := by
    rw [List.range_eq_range']
    exact filter_isJump_errorsFrom options rfl rfl
  refine ⟨hjumps, ?_⟩
  rw [hjumps, List.filterMap_eq_nil_iff, LineTree.isGapless_iff]
  constructor
  · exact fun h i hi => (LineTree.jumpAt?_eq_none_iff hi).1 (h i (List.mem_range.2 hi))
  · exact fun h i hi => (LineTree.jumpAt?_eq_none_iff (List.mem_range.1 hi)).2
      (h i (List.mem_range.1 hi))

end SlimTemplate
