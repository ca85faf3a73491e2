import Mathlib.Data.List.Sort
import SlimTemplate.Proofs.Extraction.Cutout
import SlimTemplate.Proofs.Extraction.Region
import SlimTemplate.Proofs.Line.Kind
import SlimTemplate.Proofs.Line.Normal
import SlimTemplate.Proofs.Text.Search

/-!
# Extracting again

What is extracted is a cutout of its source, and each of its lines is chosen again for the reason
it was chosen for before: it is still above the depth, no line has a name to be removed, and a line
in a block still has the root of that block above it, since such roots are no comments and stay.
The clean-up has nothing left to do.

## Main definitions

* `Extraction.IsSettled`: lines without an orphaned comment.
* `Extraction.IsRootTest`: a condition on the roots of blocks that reads nothing but the line.
* `LineTree.IsStable`: a way to choose lines that chooses them again where they are cut out.

## Main statements

* `Extraction.IsSettled.dropOrphans_eq`, `Extraction.isSettled_dropOrphans`: the clean-up is done
  after one run.
* `LineTree.isStable_level`, `LineTree.isStable_outside`, `LineTree.isStable_inside`: each mode
  of extraction chooses so.
* `extract_extract`: extracting again changes nothing.
-/

namespace SlimTemplate

open Extraction LineTree

namespace Extraction

/-! ## Settled lines -/

/-- A line directly behind every comment among lines is no shallower than it. -/
def IsSettled : List SlimLine → Prop
  | [] => True
  | line :: lines =>
    (line.kind.isComment = true → ∃ next ∈ lines.head?, line.level ≤ next.level) ∧ IsSettled lines

theorem isSettled_dropOrphans (lines : List SlimLine) : IsSettled (dropOrphans lines) := by
  induction lines with
  | nil => exact trivial
  | cons line lines ih =>
    by_cases hstays : line.kind.isComment = true →
        ∃ next ∈ (dropOrphans lines).head?, line.level ≤ next.level
    · rw [dropOrphans_cons_of_stays hstays]
      exact ⟨hstays, ih⟩
    · obtain ⟨hcomment, horphan⟩ := Classical.not_imp.1 hstays
      rw [dropOrphans_cons_of_orphan hcomment horphan]
      exact ih

/-- The clean-up leaves settled lines as they are. -/
theorem IsSettled.dropOrphans_eq {lines : List SlimLine} (h : IsSettled lines) :
    dropOrphans lines = lines := by
  induction lines with
  | nil => rfl
  | cons line lines ih =>
    obtain ⟨hstays, hrest⟩ := h
    rw [dropOrphans_cons_of_stays (by rwa [ih hrest]), ih hrest]

/-- Lines stay settled when all levels are lowered alike. -/
theorem IsSettled.of_lowered {lines again : List SlimLine} (base : Nat) (h : IsSettled lines)
    (hagain : again.map (fun line => (line.kind, line.level)) =
      lines.map fun line => (line.kind, line.level - base)) : IsSettled again := by
  induction lines generalizing again with
  | nil =>
    rw [List.map_nil, List.map_eq_nil_iff] at hagain
    rw [hagain]
    exact trivial
  | cons line lines ih =>
    obtain ⟨low, lower, rfl, hlow, hlower⟩ := List.map_eq_cons_iff.1 hagain
    obtain ⟨hkind, hlevel⟩ := Prod.mk.inj hlow
    refine ⟨fun hcomment => ?_, ih h.2 hlower⟩
    obtain ⟨next, hnext, hdeep⟩ := h.1 (hkind ▸ hcomment)
    obtain ⟨more, rfl⟩ := List.head?_eq_some_iff.1 hnext
    obtain ⟨lowNext, lowMore, rfl, hlowNext, -⟩ := List.map_eq_cons_iff.1 hlower
    refine ⟨lowNext, rfl, ?_⟩
    rw [hlevel, (Prod.mk.inj hlowNext).2]
    exact Nat.sub_le_sub_right hdeep base

/-! ## Conditions on roots -/

/-- A condition on lines that looks at nothing but content and kind, and that no comment meets. -/
structure IsRootTest (test : SlimLine → Bool) : Prop where
  congr : ∀ a b : SlimLine, a.content = b.content → a.kind = b.kind → test a = test b
  isComment_eq_false : ∀ line : SlimLine, line.IsRead → test line = true →
    line.kind.isComment = false

theorem isRootTest_isAnyNamed (names : List Text) : IsRootTest (isAnyNamed names) where
  congr := by
    intro a b hcontent hkind
    have hnamed : isNamed a = isNamed b := by
      funext name
      simp only [isNamed, hcontent, hkind]
    simp only [isAnyNamed, hnamed]
  isComment_eq_false := by
    intro line hread hnamed
    obtain ⟨name, -, hname⟩ := List.any_eq_true.1 hnamed
    rw [isNamed] at hname
    split at hname
    · rw [of_decide_eq_true hname]
      rfl
    · split at hname
      · next hlineName =>
        -- No word that stands for whole lines begins with a slash.
        by_contra hcomment
        rw [Bool.not_eq_false, hread.kind_eq] at hcomment
        have hslash := LineKind.head?_of_isComment hcomment
        obtain ⟨rest, hrest⟩ := Text.hasPrefix_iff.1 hname
        have hhead : ∀ word ∈ lineNames, word.head?.isSome = true ∧ word.head? ≠ some '/' := by
          decide
        obtain ⟨hsome, hne⟩ := hhead name (List.contains_iff_mem.1 hlineName)
        rw [← hrest, List.head?_append, Option.or_of_isSome hsome] at hslash
        exact hne hslash
      · exact LineKind.isComment_eq_false_of_isElement (Bool.and_eq_true_iff.1 hname).1

theorem isRootTest_selects (compound : Compound) : IsRootTest compound.selects where
  congr := by
    intro a b hcontent hkind
    simp only [Compound.selects, hcontent, hkind]
  isComment_eq_false := by
    intro line _ hselected
    exact LineKind.isComment_eq_false_of_isElement (Bool.and_eq_true_iff.1 hselected).1

end Extraction

/-! ## Blocks in a cutout -/

namespace LineTree

variable {again tree : LineTree} {places : List Nat} {test : SlimLine → Bool} {a i j k : Nat}

/-- The line at a place meets a condition. -/
def TestedAt (tree : LineTree) (test : SlimLine → Bool) (i : Nat) : Prop :=
  ∃ line, tree.lines[i]? = some line ∧ test line = true

namespace IsCutout

/-- A line that encloses another does so where both are cut out. -/
theorem encloses (h : again.IsCutout tree places) (hj : places[j]? = some a)
    (hk : places[k]? = some i) (hencloses : tree.Encloses a i) : again.Encloses j k := by
  obtain ⟨hai, hdeeper⟩ := hencloses.deeper
  refine (encloses_iff (h.lt_length hk)).2 ⟨?_, ?_⟩
  · rw [← Nat.not_lt, h.lt_iff hj hk]
    exact Nat.not_lt.2 hai
  · intro l hjl hlk
    obtain ⟨m, hm⟩ := h.exists_place (hlk.trans_lt (h.lt_length hk))
    have ham := (h.lt_iff hm hj).1 hjl
    have hmi : m ≤ i := by
      rw [← Nat.not_lt, ← h.lt_iff hm hk]
      exact Nat.not_lt.2 hlk
    rw [← Nat.not_le, h.levelAt_le_iff hm hj]
    exact Nat.not_le.2 (hdeeper m ham hmi)

theorem testedAt_iff (htest : IsRootTest test)
    (h : again.IsCutout tree places) (hk : places[k]? = some i) :
    again.TestedAt test k ↔ tree.TestedAt test i := by
  have hview := h.map_getElem? k
  rw [hk, Option.bind_some] at hview
  cases hline : tree.lines[i]? with
  | none =>
    rw [hline, Option.map_none, Option.map_eq_none_iff] at hview
    simp [TestedAt, hview, hline]
  | some line =>
    rw [hline, Option.map_some] at hview
    obtain ⟨cut, hcut, heq⟩ := Option.map_eq_some_iff.1 hview
    obtain ⟨hcontent, hkind, -⟩ := by simpa only [Prod.mk.injEq] using heq
    simp only [TestedAt, hcut, hline, Option.some.injEq, exists_eq_left',
      htest.congr cut line hcontent hkind]

/-- A cutout of settled lines is settled. -/
theorem isSettled (h : again.IsCutout tree places) (hsettled : IsSettled (tree.linesAt places)) :
    IsSettled again.lines := by
  have hview := congrArg (List.map Prod.snd) h.lines_eq
  rw [List.map_map, List.map_map] at hview
  exact hsettled.of_lowered _ hview

/-- A cutout is written as the lines that it was cut from. -/
theorem render_lines (h : again.IsCutout tree places) (layout : Layout) :
    SlimLine.render layout again.lines = SlimLine.render layout (tree.linesAt places) := by
  refine (SlimLine.render_of_raise (SlimLine.baseLevel (tree.linesAt places)) ?_).symm
  have hview := congrArg (List.map fun view : Text × LineKind × Nat =>
    (view.1, view.2.2 + SlimLine.baseLevel (tree.linesAt places))) h.lines_eq
  rw [List.map_map, List.map_map] at hview
  refine Eq.trans (List.map_congr_left fun line hline => ?_) hview.symm
  rw [Function.comp_apply, Nat.sub_add_cancel (SlimLine.baseLevel_le hline)]

end IsCutout

/-- Where every line is chosen, the chosen lines are all lines. -/
theorem Chooses.eq_lines {chosen : Nat → Prop} {lines : List SlimLine}
    (h : tree.Chooses chosen 0 lines) (hall : ∀ i < tree.lines.length, chosen i) :
    lines = tree.lines := by
  obtain ⟨places, hchoice, rfl, hmem⟩ := h
  have hplaces : places = List.range tree.lines.length := by
    refine hchoice.increasing.eq_of_mem_iff List.pairwise_lt_range fun i => ?_
    rw [hmem, List.mem_range]
    exact ⟨fun hi => hi.2.1, fun hi => ⟨Nat.zero_le i, hi, hall i hi⟩⟩
  rw [hplaces, linesAt_range]

/-- A way to choose lines of trees by which all lines of a cutout are chosen again, if the cutout
holds chosen lines alone and all of them but comments. -/
def IsStable (chosen : LineTree → Nat → Prop) : Prop :=
  ∀ ⦃tree again : LineTree⦄ ⦃places : List Nat⦄, (∀ line ∈ tree.lines, line.IsRead) →
    again.IsCutout tree places → (∀ i ∈ places, chosen tree i) →
    (∀ i < tree.lines.length, chosen tree i → ¬tree.IsCommentAt i → i ∈ places) →
    ∀ k < again.lines.length, chosen again k

/-- Lines above a depth come no deeper. -/
theorem isStable_level (depth : Nat) : IsStable fun tree i => tree.levelAt i < depth := by
  intro tree again places _ hcutout hchosen _ k hk
  obtain ⟨i, hi⟩ := hcutout.exists_place hk
  rw [hcutout.levelAt_eq hi]
  exact (Nat.sub_le _ _).trans_lt (hchosen i (List.mem_of_getElem? hi))

/-- The lines outside of blocks have no root of a block among them. -/
theorem isStable_outside (htest : IsRootTest test) :
    IsStable fun tree i => ¬tree.InRegion (tree.TestedAt test) i := by
  rintro tree again places _ hcutout hchosen _ k hk ⟨j, hroot, hencloses⟩
  -- A root in the cutout would be a root in the tree, outside of every block.
  obtain ⟨a, ha⟩ := hcutout.exists_place (hencloses.deeper.1.trans_lt hk)
  refine hchosen a (List.mem_of_getElem? ha) ⟨a, ?_, Relation.ReflTransGen.refl⟩
  exact (hcutout.testedAt_iff htest ha).1 hroot

/-- The root of a block is no comment, so it is cut out together with the lines of the block. -/
theorem isStable_inside (htest : IsRootTest test) :
    IsStable fun tree i => tree.InRegion (tree.TestedAt test) i := by
  intro tree again places hread hcutout hchosen hall k hk
  obtain ⟨i, hi⟩ := hcutout.exists_place hk
  obtain ⟨a, hroot, hencloses⟩ := hchosen i (List.mem_of_getElem? hi)
  -- Only comments among the chosen lines are left out.
  have ha : a ∈ places := by
    obtain ⟨line, hline, htested⟩ := hroot
    refine hall a (List.getElem?_eq_some_iff.1 hline).1 ⟨a, ⟨line, hline, htested⟩,
      Relation.ReflTransGen.refl⟩ ?_
    rw [isCommentAt_iff hline,
      htest.isComment_eq_false line (hread line (List.mem_of_getElem? hline)) htested]
    decide
  obtain ⟨j, hj⟩ := List.mem_iff_getElem?.1 ha
  exact ⟨j, (hcutout.testedAt_iff htest hj).2 hroot, hcutout.encloses hj hi hencloses⟩

end LineTree

/-! ## Extracting twice -/

variable {options : ExtractionOptions} {source : Text} {result : Extract} {tree : LineTree}

/-- What an extraction that succeeds has chosen, and what it writes. -/
theorem exists_of_extract (h : extract options source = .ok result) :
    (options.rejectConflicts && decide (1 < options.modes.length)) = false ∧
      ∃ lines, choose options (.ofSource options.layout source) = .ok (lines, result.summary) ∧
        result.content = SlimLine.render options.layout (cleanUp options lines) ++ ['\n'] := by
  simp only [extract] at h
  split at h
  · cases h
  · next hconflict =>
    refine ⟨by simpa using hconflict, ?_⟩
    split at h
    · cases h
    · cases hchoose : choose options (.ofSource options.layout source) with
      | error e =>
        rw [hchoose] at h
        cases h
      | ok chosen =>
        rw [hchoose] at h
        cases h
        exact ⟨chosen.1, rfl, rfl⟩

theorem extract_of_choose {lines : List SlimLine} {summary : Summary}
    (hconflict : (options.rejectConflicts && decide (1 < options.modes.length)) = false)
    (hne : SlimLine.ofSource options.layout source ≠ [])
    (hchoose : choose options (.ofSource options.layout source) = .ok (lines, summary)) :
    extract options source =
      .ok ⟨SlimLine.render options.layout (cleanUp options lines) ++ ['\n'], summary⟩ := by
  have hlines : (LineTree.ofSource options.layout source).lines.isEmpty = false :=
    List.isEmpty_eq_false_iff.2 hne
  simp only [extract, hconflict, hlines, hchoose, Bool.false_eq_true, if_false, Except.map]

/-- The roots of blocks are the lines that a selector without a parent selects. -/
theorem testedAt_selects (tree : LineTree) (compound : Compound) :
    tree.TestedAt compound.selects = fun i => (Selector.simple compound).selects tree i = true := by
  funext i
  cases hline : tree.lines[i]? <;> simp [TestedAt, Selector.selects, hline]

theorem exists_isStable_bySections (options : ExtractionOptions) (tree : LineTree) :
    ∃ chosen, IsStable chosen ∧ ∀ again,
      (bySections options again).2 = (bySections options tree).2 ∧
        again.Chooses (chosen again) 0 (bySections options again).1 := by
  simp only [bySections]
  by_cases hkeep : (splitNames options.keep).isEmpty = true
  · simp only [hkeep, if_true]
    exact ⟨_, isStable_outside (isRootTest_isAnyNamed _),
      fun again => ⟨trivial, chooses_removeNamed again _⟩⟩
  · simp only [hkeep, Bool.false_eq_true, if_false]
    exact ⟨_, isStable_inside (isRootTest_isAnyNamed _),
      fun again => ⟨trivial, chooses_keepNamed again _⟩⟩

/-- Without selectors that look at parents, lines are chosen in a stable way. -/
theorem exists_isStable {lines : List SlimLine} {summary : Summary}
    (hmode : options.outline.isSome = true ∨ ∀ text ∈ options.selector, ∀ selector,
      Selector.parse text = .ok selector → selector.isChild = false)
    (hchoose : choose options tree = .ok (lines, summary)) :
    ∃ chosen, IsStable chosen ∧ ∀ tree, ∃ lines, choose options tree = .ok (lines, summary) ∧
      tree.Chooses (chosen tree) 0 lines := by
  cases houtline : options.outline with
  | some depth =>
    simp only [choose, houtline, Except.ok.injEq, Prod.mk.injEq] at hchoose ⊢
    exact ⟨_, isStable_level depth, fun tree => ⟨_, ⟨rfl, hchoose.2⟩, chooses_outline tree depth⟩⟩
  | none =>
    have hsimple := hmode.resolve_left (by rw [houtline]; decide)
    cases hselector : options.selector with
    | some text =>
      simp only [choose, houtline, hselector] at hchoose ⊢
      cases hparse : Selector.parse text with
      | error e =>
        rw [hparse] at hchoose
        cases hchoose
      | ok selector =>
        rw [hparse] at hchoose
        cases selector with
        | below parent child =>
          have hchild : true = false := hsimple text hselector _ hparse
          cases hchild
        | simple compound =>
          simp only [Except.ok.injEq, Prod.mk.injEq] at hchoose ⊢
          refine ⟨_, isStable_inside (isRootTest_selects compound),
            fun tree => ⟨_, ⟨rfl, hchoose.2⟩, ?_⟩⟩
          rw [testedAt_selects]
          exact chooses_select tree (.simple compound)
    | none =>
      simp only [choose, houtline, hselector, Except.ok.injEq] at hchoose ⊢
      obtain ⟨chosen, hstable, hway⟩ := exists_isStable_bySections options tree
      refine ⟨chosen, hstable, fun again => ⟨(bySections options again).1, ?_, (hway again).2⟩⟩
      have hsummary : (bySections options again).2 = summary := by
        rw [(hway again).1, hchoose]
      exact Prod.ext rfl hsummary

/-- Without dropping wrappers and without selectors that look at parents, extracting from what was
extracted changes nothing, as long as there is a line to extract. -/
theorem extract_extract (hwrapper : options.removeWrapper = false)
    (hmode : options.outline.isSome = true ∨ ∀ text ∈ options.selector, ∀ selector,
      Selector.parse text = .ok selector → selector.isChild = false)
    (h : extract options source = .ok result)
    (hne : SlimLine.ofSource options.layout result.content ≠ []) :
    extract options result.content = .ok result := by
  obtain ⟨hconflict, lines, hchoose, hcontent⟩ := exists_of_extract h
  have hclean : ∀ lines, cleanUp options lines = dropOrphans lines := by
    intro lines
    rw [cleanUp, hwrapper, Bool.false_and, if_neg Bool.false_ne_true]
  rw [hclean] at hcontent
  obtain ⟨chosen, hstable, hway⟩ := exists_isStable hmode hchoose
  obtain ⟨_, hsame, places, hplaces, rfl, hmem⟩ := hway (.ofSource options.layout source)
  obtain ⟨rfl, -⟩ := Prod.mk.inj (Except.ok.inj (hchoose.symm.trans hsame))
  obtain ⟨kept, hkept, hlines, hsurvive⟩ := hplaces.exists_dropOrphans
  have hcutout := isCutout_render hkept
  rw [hlines, ← hcontent] at hcutout
  -- All lines are chosen again, and none of their comments is an orphan.
  obtain ⟨again, hagain, hchooses⟩ := hway (.ofSource options.layout result.content)
  obtain rfl := hchooses.eq_lines <| hstable (fun _ => SlimLine.isRead_of_mem_ofSource) hcutout
    (fun i hi => ((hmem i).1 ((hsurvive i).1 hi).1).2.2) fun i hi hchosen hcomment =>
      (hsurvive i).2 ⟨(hmem i).2 ⟨i.zero_le, hi, hchosen⟩, fun hc => absurd hc hcomment⟩
  have hsettled := hcutout.isSettled (hlines ▸ isSettled_dropOrphans _)
  rw [extract_of_choose hconflict hne hagain, hclean, hsettled.dropOrphans_eq,
    hcutout.render_lines, hlines, ← hcontent]

/-- A page with a menu and two cards, all at different depths. -/
def menuAndCards : Text :=
  "div\n  nav\n    / offers\n  ul\n    .card A\n      | new\n.card B\n".toList

/-- The standard options with names to keep. -/
def keepingMenuAndCards : ExtractionOptions :=
  { ExtractionOptions.standard with keep := ["Nav, card".toList] }

/-- Without the list the first card comes to stand in the menu, as what the comment is about. -/
theorem extract_extract_menuAndCards :
    ∃ result, extract keepingMenuAndCards menuAndCards = .ok result ∧
      result.content = "  nav\n    / offers\n    .card A\n      | new\n.card B\n".toList ∧
      SlimLine.ofSource .standard result.content ≠ [] ∧
      extract keepingMenuAndCards result.content = .ok result := by
  have h : extract keepingMenuAndCards menuAndCards =
      .ok ⟨"  nav\n    / offers\n    .card A\n      | new\n.card B\n".toList,
        .sections [] (some ["nav".toList, "card".toList])⟩ := by
    decide +kernel
  have hne : SlimLine.ofSource .standard
      "  nav\n    / offers\n    .card A\n      | new\n.card B\n".toList ≠ [] := by
    decide +kernel
  refine ⟨_, h, rfl, hne, extract_extract rfl (Or.inr ?_) h hne⟩
  intro text htext
  cases htext

end SlimTemplate
