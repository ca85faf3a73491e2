import SlimTemplate.Proofs.Extraction.Orphan

/-!
# Lines inside and outside of blocks

Choosing by names or by a selector goes down the lines and remembers the block that it is in. A
line is inside exactly if a line that encloses it, or the line itself, is the root of a block.

## Main definitions

* `LineTree.InRegion`: a line in a block with a given kind of root.
* `LineTree.OpenAt`: a block that is still open before a place.
* `LineTree.Chooses`: the lines from a place on that a predicate chooses.

## Main statements

* `LineTree.openAt_succ`: what a line does to the open blocks.
* `LineTree.chooses_removeNamed`, `LineTree.chooses_keepNamed`, `LineTree.chooses_select`,
  `LineTree.chooses_outline`: the lines that each way chooses.
-/

namespace SlimTemplate.LineTree

open Extraction

variable {tree : LineTree} {chosen root : Nat → Prop} {start level : Nat} {opened : Option Nat}
  {line : SlimLine} {lines : List SlimLine}

/-! ## Lines that a predicate chooses -/

/-- The lines from a place on are those that a predicate chooses. -/
def Chooses (tree : LineTree) (chosen : Nat → Prop) (start : Nat) (lines : List SlimLine) :
    Prop :=
  ∃ places, tree.IsChoice places ∧ tree.linesAt places = lines ∧
    ∀ i, i ∈ places ↔ start ≤ i ∧ i < tree.lines.length ∧ chosen i

theorem chooses_nil (h : tree.lines.drop start = []) : tree.Chooses chosen start [] := by
  refine ⟨[], isChoice_nil, rfl, fun i => ?_⟩
  have hlength := List.drop_eq_nil_iff.1 h
  constructor
  · intro hi
    cases hi
  · intro hi
    omega

theorem Chooses.take (hline : tree.lines[start]? = some line) (hchosen : chosen start)
    (h : tree.Chooses chosen (start + 1) lines) : tree.Chooses chosen start (line :: lines) := by
  obtain ⟨places, hchoice, hlines, hmem⟩ := h
  have hstart : start < tree.lines.length := (List.getElem?_eq_some_iff.1 hline).1
  refine ⟨start :: places, isChoice_cons.2 ⟨hstart, fun i hi => ((hmem i).1 hi).1, hchoice⟩,
    by rw [linesAt_cons hline, hlines], fun i => ?_⟩
  rw [List.mem_cons, hmem]
  constructor
  · rintro (rfl | ⟨hi, hrest⟩)
    · exact ⟨le_rfl, hstart, hchosen⟩
    · exact ⟨by omega, hrest⟩
  · rintro ⟨hi, hrest⟩
    rcases hi.eq_or_lt with rfl | hi
    · exact Or.inl rfl
    · exact Or.inr ⟨hi, hrest⟩

theorem Chooses.skip (hchosen : ¬chosen start) (h : tree.Chooses chosen (start + 1) lines) :
    tree.Chooses chosen start lines := by
  obtain ⟨places, hchoice, hlines, hmem⟩ := h
  refine ⟨places, hchoice, hlines, fun i => ?_⟩
  rw [hmem]
  constructor
  · rintro ⟨hi, hrest⟩
    exact ⟨by omega, hrest⟩
  · rintro ⟨hi, hrest⟩
    rcases hi.eq_or_lt with rfl | hi
    · exact absurd hrest.2 hchosen
    · exact ⟨hi, hrest⟩

/-! ## Open blocks -/

/-- A line is the root of a block or stands in one. -/
def InRegion (tree : LineTree) (root : Nat → Prop) (i : Nat) : Prop :=
  ∃ a, root a ∧ tree.Encloses a i

/-- A block from before a place goes on there, if a line of that level stands there. -/
def OpenAt (tree : LineTree) (root : Nat → Prop) (start level : Nat) : Prop :=
  ∃ a < start, root a ∧ (∀ m, a < m → m < start → tree.levelAt a < tree.levelAt m) ∧
    tree.levelAt a < level

theorem not_openAt_zero : ¬tree.OpenAt root 0 level := by
  rintro ⟨a, ha, -⟩
  omega

theorem inRegion_iff (h : start < tree.lines.length) :
    tree.InRegion root start ↔ tree.OpenAt root start (tree.levelAt start) ∨ root start := by
  constructor
  · rintro ⟨a, hroot, hencloses⟩
    obtain ⟨ha, hdeeper⟩ := hencloses.deeper
    rcases ha.eq_or_lt with rfl | ha
    · exact Or.inr hroot
    · exact Or.inl ⟨a, ha, hroot, fun m hm hstart => hdeeper m hm hstart.le,
        hdeeper start ha le_rfl⟩
  · rintro (⟨a, ha, hroot, hdeeper, hlevel⟩ | hroot)
    · refine ⟨a, hroot, (encloses_iff h).2 ⟨ha.le, fun m hm hstart => ?_⟩⟩
      rcases hstart.eq_or_lt with rfl | hstart
      · exact hlevel
      · exact hdeeper m hm hstart
    · exact ⟨start, hroot, Relation.ReflTransGen.refl⟩

/-- A line closes the blocks whose roots are no shallower, and may open its own. -/
theorem openAt_succ : tree.OpenAt root (start + 1) level ↔
    tree.OpenAt root start (min level (tree.levelAt start)) ∨
      root start ∧ tree.levelAt start < level := by
  -- A block goes on past a line that is deeper than its root, so that line bounds the level too.
  constructor
  · rintro ⟨a, ha, hroot, hdeeper, hlevel⟩
    rcases (Nat.lt_succ_iff.1 ha).eq_or_lt with rfl | ha
    · exact Or.inr ⟨hroot, hlevel⟩
    · refine Or.inl ⟨a, ha, hroot, fun m hm hstart => hdeeper m hm (by omega), ?_⟩
      exact Nat.lt_min.2 ⟨hlevel, hdeeper start ha (Nat.lt_succ_self start)⟩
  · rintro (⟨a, ha, hroot, hdeeper, hlevel⟩ | ⟨hroot, hlevel⟩)
    · obtain ⟨hlevel, hstart⟩ := Nat.lt_min.1 hlevel
      refine ⟨a, by omega, hroot, fun m hm hms => ?_, hlevel⟩
      rcases (Nat.lt_succ_iff.1 hms).eq_or_lt with rfl | hms
      · exact hstart
      · exact hdeeper m hm hms
    · exact ⟨start, Nat.lt_succ_self start, hroot, fun m hm hms => by omega, hlevel⟩

/-- The remembered level is that of the shallowest block which is open before a place. -/
def Remembers (tree : LineTree) (root : Nat → Prop) (start : Nat) (opened : Option Nat) : Prop :=
  ∀ level, tree.OpenAt root start level ↔ ∃ s ∈ opened, s < level

theorem remembers_zero : tree.Remembers root 0 none := by
  intro level
  constructor
  · exact fun h => absurd h not_openAt_zero
  · rintro ⟨_, ⟨⟩, _⟩

theorem Remembers.inRegion (h : tree.Remembers root start opened)
    (hline : tree.lines[start]? = some line) {s : Nat}
    (hs : opened.filter (· < line.level) = some s) : tree.InRegion root start := by
  obtain ⟨rfl, hlevel⟩ := Option.filter_eq_some_iff.1 hs
  rw [inRegion_iff (List.getElem?_eq_some_iff.1 hline).1, levelAt_of_getElem? hline]
  exact Or.inl ((h _).2 ⟨s, rfl, by simpa using hlevel⟩)

theorem Remembers.inRegion_iff_root (h : tree.Remembers root start opened)
    (hline : tree.lines[start]? = some line) (hs : opened.filter (· < line.level) = none) :
    tree.InRegion root start ↔ root start := by
  rw [inRegion_iff (List.getElem?_eq_some_iff.1 hline).1, levelAt_of_getElem? hline, h,
    or_iff_right]
  rintro ⟨s, hmem, hlevel⟩
  exact Option.filter_eq_none_iff.1 hs s hmem (by simpa using hlevel)

theorem Remembers.stay (h : tree.Remembers root start opened)
    (hline : tree.lines[start]? = some line) {s : Nat}
    (hs : opened.filter (· < line.level) = some s) :
    tree.Remembers root (start + 1) (some s) := by
  obtain ⟨rfl, hlevel⟩ := Option.filter_eq_some_iff.1 hs
  rw [decide_eq_true_eq] at hlevel
  intro level
  rw [openAt_succ, h, levelAt_of_getElem? hline]
  simp only [Option.mem_def, Option.some.injEq, exists_eq_left']
  omega

theorem Remembers.openAt_succ_iff (h : tree.Remembers root start opened)
    (hline : tree.lines[start]? = some line) (hs : opened.filter (· < line.level) = none) :
    tree.OpenAt root (start + 1) level ↔ root start ∧ line.level < level := by
  rw [openAt_succ, h, levelAt_of_getElem? hline, or_iff_right]
  rintro ⟨s, hmem, hlevel⟩
  exact Option.filter_eq_none_iff.1 hs s hmem (by simpa using (Nat.lt_min.1 hlevel).2)

theorem Remembers.enter (h : tree.Remembers root start opened)
    (hline : tree.lines[start]? = some line) (hs : opened.filter (· < line.level) = none)
    (hroot : root start) : tree.Remembers root (start + 1) (some line.level) := by
  intro level
  rw [h.openAt_succ_iff hline hs, and_iff_right hroot]
  simp

theorem Remembers.leave (h : tree.Remembers root start opened)
    (hline : tree.lines[start]? = some line) (hs : opened.filter (· < line.level) = none)
    (hroot : ¬root start) : tree.Remembers root (start + 1) none := by
  intro level
  rw [h.openAt_succ_iff hline hs]
  constructor
  · exact fun hopen => absurd hopen.1 hroot
  · rintro ⟨_, ⟨⟩, _⟩

/-! ## The ways to choose -/

/-- The line at a place has one of the names. -/
def IsNamedAt (tree : LineTree) (names : List Text) (i : Nat) : Prop :=
  ∃ line, tree.lines[i]? = some line ∧ isAnyNamed names line = true

theorem isNamedAt_iff {names : List Text} (h : tree.lines[start]? = some line) :
    tree.IsNamedAt names start ↔ isAnyNamed names line = true := by
  constructor
  · rintro ⟨other, hother, hnamed⟩
    rw [h] at hother
    cases hother
    exact hnamed
  · exact fun hnamed => ⟨line, h, hnamed⟩

theorem chooses_keepFrom {names : List Text}
    (h : tree.Remembers (tree.IsNamedAt names) start opened)
    (hlines : tree.lines.drop start = lines) :
    tree.Chooses (tree.InRegion (tree.IsNamedAt names)) start (keepFrom names opened lines) := by
  -- What the walk remembers says which blocks are open before each line that is left.
  induction lines generalizing start opened with
  | nil => exact chooses_nil hlines
  | cons line lines ih =>
    have hline := getElem?_of_drop hlines
    have hrest := drop_succ_of_drop hlines
    rw [keepFrom]
    split
    · next s hs => exact (ih (h.stay hline hs) hrest).take hline (h.inRegion hline hs)
    · next hs =>
      have hregion := h.inRegion_iff_root hline hs
      rw [isNamedAt_iff hline] at hregion
      split
      · next hnamed =>
        have hroot := (isNamedAt_iff hline).2 hnamed
        exact (ih (h.enter hline hs hroot) hrest).take hline (hregion.2 hnamed)
      · next hnamed =>
        have hroot := mt (isNamedAt_iff hline).1 hnamed
        exact (ih (h.leave hline hs hroot) hrest).skip (mt hregion.1 hnamed)

theorem chooses_removeFrom {names : List Text}
    (h : tree.Remembers (tree.IsNamedAt names) start opened)
    (hlines : tree.lines.drop start = lines) :
    tree.Chooses (fun i => ¬tree.InRegion (tree.IsNamedAt names) i) start
      (removeFrom names opened lines) := by
  induction lines generalizing start opened with
  | nil => exact chooses_nil hlines
  | cons line lines ih =>
    have hline := getElem?_of_drop hlines
    have hrest := drop_succ_of_drop hlines
    rw [removeFrom]
    split
    · next s hs =>
      exact (ih (h.stay hline hs) hrest).skip (not_not.2 (h.inRegion hline hs))
    · next hs =>
      have hregion := h.inRegion_iff_root hline hs
      rw [isNamedAt_iff hline] at hregion
      split
      · next hnamed =>
        have hroot := (isNamedAt_iff hline).2 hnamed
        exact (ih (h.enter hline hs hroot) hrest).skip (not_not.2 (hregion.2 hnamed))
      · next hnamed =>
        have hroot := mt (isNamedAt_iff hline).1 hnamed
        exact (ih (h.leave hline hs hroot) hrest).take hline (mt hregion.1 hnamed)

/-- The number of lines that belong to the block remembered. -/
def openCount (opened : Option Nat) (lines : List SlimLine) : Nat :=
  match opened with
  | none => 0
  | some s => (lines.takeWhile fun line => s < line.level).length

theorem openCount_cons_of_some {s : Nat} (h : opened.filter (· < line.level) = some s) :
    openCount opened (line :: lines) = openCount (some s) lines + 1 := by
  obtain ⟨rfl, hlevel⟩ := Option.filter_eq_some_iff.1 h
  rw [openCount, openCount, List.takeWhile_cons, if_pos hlevel, List.length_cons]

theorem openCount_cons_of_none (h : opened.filter (· < line.level) = none) :
    openCount opened (line :: lines) = 0 := by
  cases opened with
  | none => rfl
  | some s =>
    rw [openCount, List.takeWhile_cons, if_neg (Option.filter_eq_none_iff.1 h s rfl)]
    rfl

theorem chooses_selectFrom {selector : Selector}
    (h : tree.Remembers (fun i => selector.selects tree i = true) start opened)
    (hlines : tree.lines.drop start = lines) :
    tree.Chooses (tree.InRegion fun i => selector.selects tree i = true) start
      (selectFrom selector tree start (openCount opened lines) lines) := by
  induction lines generalizing start opened with
  | nil =>
    rw [selectFrom]
    exact chooses_nil hlines
  | cons line lines ih =>
    have hline := getElem?_of_drop hlines
    have hrest := drop_succ_of_drop hlines
    cases hs : opened.filter (· < line.level) with
    | some s =>
      -- The count of a block's lines goes down by one at each of them.
      rw [openCount_cons_of_some hs, selectFrom]
      exact (ih (h.stay hline hs) hrest).take hline (h.inRegion hline hs)
    | none =>
      have hregion := h.inRegion_iff_root hline hs
      rw [openCount_cons_of_none hs, selectFrom]
      split
      · next hroot =>
        exact (ih (h.enter hline hs hroot) hrest).take hline (hregion.2 hroot)
      · next hroot => exact (ih (h.leave hline hs hroot) hrest).skip (mt hregion.1 hroot)

/-- Names to keep choose the lines in the blocks with such a root. -/
theorem chooses_keepNamed (tree : LineTree) (names : List Text) :
    tree.Chooses (tree.InRegion (tree.IsNamedAt names)) 0 (keepNamed names tree.lines) :=
  chooses_keepFrom remembers_zero rfl

/-- Names to remove choose the lines outside of all blocks with such a root. -/
theorem chooses_removeNamed (tree : LineTree) (names : List Text) :
    tree.Chooses (fun i => ¬tree.InRegion (tree.IsNamedAt names) i) 0
      (removeNamed names tree.lines) :=
  chooses_removeFrom remembers_zero rfl

/-- A selector chooses the lines in the blocks whose roots it selects. -/
theorem chooses_select (tree : LineTree) (selector : Selector) :
    tree.Chooses (tree.InRegion fun i => selector.selects tree i = true) 0
      (select selector tree) :=
  chooses_selectFrom remembers_zero rfl

theorem chooses_filter_level {depth : Nat} (hlines : tree.lines.drop start = lines) :
    tree.Chooses (fun i => tree.levelAt i < depth) start
      (lines.filter fun line => line.level < depth) := by
  induction lines generalizing start with
  | nil => exact chooses_nil hlines
  | cons line lines ih =>
    have hline := getElem?_of_drop hlines
    have hrest := ih (drop_succ_of_drop hlines)
    by_cases hlevel : line.level < depth
    · rw [List.filter_cons_of_pos (by simpa using hlevel)]
      exact hrest.take hline (by rwa [levelAt_of_getElem? hline])
    · rw [List.filter_cons_of_neg (by simpa using hlevel)]
      exact hrest.skip (by rwa [levelAt_of_getElem? hline])

/-- An outline chooses the lines above its depth. -/
theorem chooses_outline (tree : LineTree) (depth : Nat) :
    tree.Chooses (fun i => tree.levelAt i < depth) 0 (outline tree.lines depth) :=
  chooses_filter_level rfl

end SlimTemplate.LineTree
