import SlimTemplate.Proofs.Extraction.Extract
import SlimTemplate.Proofs.Line.Block

/-!
# The places of chosen lines

Each way to choose lines goes down the lines once and looks at no root inside of a block that it
is in. What it chooses can be said without the walk, as the lines at the places where a condition
on the tree holds: for a selector, that the place lies in a block whose first line is selected; for
names, that the line or one of its ancestors has one of them.

## Main definitions

* `LineTree.placesWhere`: the places where a condition holds, from top to bottom.
* `LineTree.IsNamedOrBelow`: a line with one of some names, or with an ancestor that has one.

## Main statements

* `LineTree.Chooses.eq_linesAt`: chosen lines are those at the places of their condition.
* `LineTree.select_eq_linesAt`: a selector takes the union of the blocks that it selects.
* `LineTree.keepNamed_and_removeNamed_eq_linesAt`: names keep the lines that have one of them or
  stand below such a line, and remove the same lines.
-/

namespace SlimTemplate.LineTree

open Extraction

variable {tree : LineTree} {chosen chosen' root : Nat → Prop} {i j : Nat} {lines : List SlimLine}
  {names : List Text}

/-- The places of the lines that a condition holds of, from top to bottom. -/
def placesWhere (tree : LineTree) (chosen : Nat → Prop) [DecidablePred chosen] : List Nat :=
  (List.range tree.lines.length).filter chosen

theorem Chooses.eq_linesAt [DecidablePred chosen'] (h : tree.Chooses chosen 0 lines)
    (hiff : ∀ i, chosen i ↔ chosen' i) : lines = tree.linesAt (tree.placesWhere chosen') := by
  obtain ⟨places, hchoice, rfl, hmem⟩ := h
  have hincreasing : (tree.placesWhere chosen').Pairwise (· < ·) := List.pairwise_lt_range.filter _
  -- Both lists of places go up, so it is enough that they have the same members.
  refine congrArg _ (hchoice.increasing.eq_of_mem_iff hincreasing fun i => ?_)
  simp [hmem, placesWhere, hiff]

/-! ## Selectors -/

/-- A line is in a block with a given kind of root exactly if it comes before the block end of such
a root. -/
theorem inRegion_iff_exists_blockEnd (hroot : ∀ i, root i → i < tree.lines.length) :
    tree.InRegion root j ↔ ∃ i ≤ j, root i ∧ j < tree.blockEnd i := by
  apply exists_congr
  intro i
  constructor
  · rintro ⟨hi, hencloses⟩
    obtain ⟨hij, hend⟩ := mem_block_iff.2 ⟨hroot i hi, hencloses⟩
    exact ⟨hij, hi, hend⟩
  · rintro ⟨hij, hi, hend⟩
    exact ⟨hi, (mem_block_iff.1 ⟨hij, hend⟩).2⟩

theorem lt_length_of_selects {selector : Selector} (h : selector.selects tree i = true) :
    i < tree.lines.length := by
  by_contra hi
  rw [Selector.selects, List.getElem?_eq_none (Nat.le_of_not_lt hi)] at h
  exact Bool.false_ne_true h

/-- A selector takes the lines of all blocks whose first line it selects, each once and from top to
bottom. -/
theorem select_eq_linesAt (selector : Selector) (tree : LineTree) :
    select selector tree =
      tree.linesAt (tree.placesWhere fun j =>
        ∃ i ≤ j, selector.selects tree i = true ∧ j < tree.blockEnd i) := by
  refine (chooses_select tree selector).eq_linesAt fun j => ?_
  exact inRegion_iff_exists_blockEnd fun i hselects => lt_length_of_selects hselects

/-! ## Names -/

/-- A line has one of the names, or one of its ancestors has. -/
def IsNamedOrBelow (tree : LineTree) (names : List Text) (i : Nat) : Prop :=
  tree.IsNamedAt names i ∨ ∃ a, tree.IsAncestor a i ∧ tree.IsNamedAt names a

instance (tree : LineTree) (names : List Text) : DecidablePred (tree.IsNamedAt names) := fun i =>
  decidable_of_iff (tree.lines[i]?.any (isAnyNamed names) = true) (Option.any_eq_true _ _)

instance (tree : LineTree) (names : List Text) : DecidablePred (tree.IsNamedOrBelow names) :=
  fun i =>
    decidable_of_iff (tree.IsNamedAt names i ∨ ∃ a ∈ tree.ancestors i, tree.IsNamedAt names a)
      (by simp [mem_ancestors_iff, IsNamedOrBelow])

theorem inRegion_isNamedAt_iff :
    tree.InRegion (tree.IsNamedAt names) i ↔ tree.IsNamedOrBelow names i := by
  simp only [InRegion, encloses_iff_eq_or_isAncestor]
  constructor
  · rintro ⟨a, hnamed, rfl | hancestor⟩
    · exact Or.inl hnamed
    · exact Or.inr ⟨a, hancestor, hnamed⟩
  · rintro (hnamed | ⟨a, hancestor, hnamed⟩)
    · exact ⟨i, hnamed, Or.inl rfl⟩
    · exact ⟨a, hnamed, Or.inr hancestor⟩

theorem keepNamed_eq_linesAt (tree : LineTree) (names : List Text) :
    keepNamed names tree.lines = tree.linesAt (tree.placesWhere (tree.IsNamedOrBelow names)) :=
  (chooses_keepNamed tree names).eq_linesAt fun _ => inRegion_isNamedAt_iff

theorem removeNamed_eq_linesAt (tree : LineTree) (names : List Text) :
    removeNamed names tree.lines =
      tree.linesAt (tree.placesWhere fun i => ¬tree.IsNamedOrBelow names i) :=
  (chooses_removeNamed tree names).eq_linesAt fun _ => not_congr inRegion_isNamedAt_iff

theorem bySections_of_keep {options : ExtractionOptions} (h : splitNames options.keep ≠ []) :
    (bySections options tree).1 = keepNamed (splitNames options.keep) tree.lines := by
  simp [bySections, h]

theorem bySections_of_remove {options : ExtractionOptions} (h : splitNames options.keep = []) :
    (bySections options tree).1 = removeNamed (removedNames options) tree.lines := by
  simp [bySections, h, removedNames]

/-- Names keep exactly the lines that have one of them or stand below a line that has, and remove
exactly these, both from top to bottom. Options choose by their names to keep if there are any,
whatever they remove, and else by those to remove. -/
theorem keepNamed_and_removeNamed_eq_linesAt (tree : LineTree) (names : List Text) :
    keepNamed names tree.lines = tree.linesAt (tree.placesWhere (tree.IsNamedOrBelow names)) ∧
    removeNamed names tree.lines =
      tree.linesAt (tree.placesWhere fun i => ¬tree.IsNamedOrBelow names i) ∧
    ∀ options : ExtractionOptions,
      (splitNames options.keep = names → names ≠ [] →
        (bySections options tree).1 = keepNamed names tree.lines) ∧
      (splitNames options.keep = [] → removedNames options = names →
        (bySections options tree).1 = removeNamed names tree.lines) := by
  refine ⟨keepNamed_eq_linesAt tree names, removeNamed_eq_linesAt tree names,
    fun options => ⟨?_, ?_⟩⟩
  · rintro rfl hnames
    exact bySections_of_keep hnames
  · rintro hkeep rfl
    exact bySections_of_remove hkeep

/-- A page with a menu inside of another and one directly behind them. -/
def pageWithMenus : LineTree :=
  .ofSource .standard "nav\n      a A\n  nav B\nfooter.nav\n  p C\nmain\n    p D\n".toList

/-- The standard options with menus to keep and the main part to remove. -/
def keepingMenus : ExtractionOptions :=
  { ExtractionOptions.standard with keep := [" NAV".toList], remove := ["main".toList] }

/-- The standard options with menus to remove. -/
def removingMenus : ExtractionOptions :=
  { ExtractionOptions.standard with remove := ["Nav,".toList] }

/-- The menus with what stands in them are kept, or the rest of the page is. -/
theorem keepNamed_and_removeNamed_eq_linesAt_menus :
    splitNames keepingMenus.keep = ["nav".toList] ∧ removedNames removingMenus = ["nav".toList] ∧
    (bySections keepingMenus pageWithMenus).1 = pageWithMenus.linesAt [0, 1, 2, 3, 4] ∧
    (bySections removingMenus pageWithMenus).1 = pageWithMenus.linesAt [5, 6] := by
  obtain ⟨hkeep, hremove, hoptions⟩ :=
    keepNamed_and_removeNamed_eq_linesAt pageWithMenus ["nav".toList]
  have hkeeping : splitNames keepingMenus.keep = ["nav".toList] := by decide +kernel
  have hremoving : removedNames removingMenus = ["nav".toList] := by decide +kernel
  have hplaces : pageWithMenus.placesWhere (pageWithMenus.IsNamedOrBelow ["nav".toList]) =
      [0, 1, 2, 3, 4] := by
    decide +kernel
  have hothers : pageWithMenus.placesWhere
      (fun i => ¬pageWithMenus.IsNamedOrBelow ["nav".toList] i) = [5, 6] := by
    decide +kernel
  refine ⟨hkeeping, hremoving, ?_, ?_⟩
  · rw [(hoptions keepingMenus).1 hkeeping (by decide), hkeep, hplaces]
  · rw [(hoptions removingMenus).2 (by decide +kernel) hremoving, hremove, hothers]

end SlimTemplate.LineTree
