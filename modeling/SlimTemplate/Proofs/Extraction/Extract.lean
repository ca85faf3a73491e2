import SlimTemplate.Proofs.Extraction.Cutout
import SlimTemplate.Proofs.Extraction.Region
import SlimTemplate.Validation.Basic

/-!
# The tree of an extracted part

An extracted part is a cutout of the source: its lines are those that were chosen and survive the
clean-up. With a depth or names to remove, whatever encloses a chosen line is chosen as well, so
every line keeps its parent. With a selector or names to keep, blocks from different depths come
to stand one after the other at their own levels. Then a line keeps its nearest enclosing line
that is still there, and a root may come to stand below a shallower line of an earlier block.

## Main definitions

* `Extraction.IsKept`, `Extraction.IsInBlock`: the lines that each way chooses.
* `Extraction.KeepsTree`, `Extraction.KeepsBlocks`: what is left of the tree of the source.

## Main statements

* `extract_keepsTree`: an outline, and names to remove, keep the tree.
* `extract_keepsBlocks`: a selector, and names to keep, keep the tree of each block.
-/

namespace SlimTemplate

open Extraction LineTree

variable {options : ExtractionOptions} {source : Text} {tree : LineTree} {places : List Nat}

namespace Extraction

/-! ## Extraction as a cutout -/

/-- With its ways to choose settled, an extraction of a source that is not blank succeeds, and
its content is a cutout of the lines that survive. -/
theorem exists_extract {lines : List SlimLine} {summary : Summary} {chosen : Nat → Prop}
    (hvisible : ∃ text ∈ Text.lines source, Text.trim text ≠ [])
    (hconflict : (options.rejectConflicts && decide (1 < options.modes.length)) = false)
    (hwrapper : options.removeWrapper = false)
    (htree : tree = .ofSource options.layout source)
    (hchoose : choose options tree = .ok (lines, summary)) (h : tree.Chooses chosen 0 lines) :
    ∃ result places, extract options source = .ok result ∧
      IsCutout (.ofSource options.layout result.content) tree places ∧
      ∀ i, i ∈ places ↔ (i < tree.lines.length ∧ chosen i) ∧
        tree.Survives (fun m => m < tree.lines.length ∧ chosen m) i := by
  obtain ⟨places, hchoice, hlines, hmem⟩ := h
  obtain ⟨kept, hkept, horphans, hsurvive⟩ := hchoice.exists_dropOrphans
  have hplaces : (· ∈ places) = fun m => m < tree.lines.length ∧ chosen m := by
    funext m
    simpa using hmem m
  have hne : tree.lines.isEmpty = false := by
    rw [List.isEmpty_eq_false_iff, htree]
    exact SlimLine.ofSource_ne_nil hvisible
  refine ⟨⟨SlimLine.render options.layout (tree.linesAt kept) ++ ['\n'], summary⟩, kept, ?_,
    htree ▸ isCutout_render (htree ▸ hkept), fun i => ?_⟩
  · simp only [extract, hconflict, Bool.false_eq_true, if_false]
    rw [← htree, hne, hchoose, horphans, hlines]
    simp only [Except.map, cleanUp, hwrapper, Bool.false_and, Bool.false_eq_true, if_false]
  · rw [hsurvive, hplaces]
    exact and_congr_left fun _ => Iff.of_eq (congrFun hplaces i)

/-! ## Depths and names to remove -/

/-- The names whose blocks are left out when none are to be kept. -/
def removedNames (options : ExtractionOptions) : List Text :=
  if (splitNames options.remove).isEmpty then splitNames options.defaultRemove
  else splitNames options.remove

/-- A line above the depth that is asked for, or else outside of all blocks to be left out. -/
def IsKept (options : ExtractionOptions) (tree : LineTree) (i : Nat) : Prop :=
  i < tree.lines.length ∧
    match options.outline with
    | some depth => tree.levelAt i < depth
    | none => ¬tree.InRegion (tree.IsNamedAt (removedNames options)) i

theorem exists_choose_isKept
    (hway : options.outline.isSome = true ∨
      options.selector = none ∧ splitNames options.keep = []) (tree : LineTree) :
    ∃ lines summary chosen, choose options tree = .ok (lines, summary) ∧
      tree.Chooses chosen 0 lines ∧
      ∀ i, IsKept options tree i ↔ i < tree.lines.length ∧ chosen i := by
  cases houtline : options.outline with
  | some depth =>
    refine ⟨_, .outline depth, _, ?_, chooses_outline tree depth, fun i => ?_⟩
    · rw [choose, houtline]
    · rw [IsKept, houtline]
  | none =>
    obtain ⟨hselector, hkeep⟩ := hway.resolve_left (by rw [houtline]; decide)
    refine ⟨_, .sections (removedNames options) none, _, ?_,
      chooses_removeNamed tree (removedNames options), fun i => ?_⟩
    · rw [choose, houtline, hselector]
      simp only [bySections, hkeep, removedNames, List.isEmpty_nil, Bool.true_and, if_true]
    · rw [IsKept, houtline]

/-- What encloses a line that is kept is kept. -/
theorem IsKept.of_parent? {i p : Nat} (h : IsKept options tree i)
    (hparent : tree.parent? i = some p) : IsKept options tree p := by
  obtain ⟨hi, hpi, hlevel, -⟩ := LineTree.parent?_eq_some_iff.1 hparent
  refine ⟨hpi.trans hi, ?_⟩
  have hkept := h.2
  cases houtline : options.outline with
  | some depth =>
    rw [houtline] at hkept
    exact hlevel.trans hkept
  | none =>
    rw [houtline] at hkept
    rintro ⟨a, hroot, hencloses⟩
    exact hkept ⟨a, hroot, hencloses.of_parent? hparent⟩

theorem IsKept.of_encloses {a i : Nat} (h : IsKept options tree i)
    (hencloses : tree.Encloses a i) : IsKept options tree a := by
  induction hencloses with
  | refl => exact h
  | tail _ hparent ih => exact ih (h.of_parent? hparent)

/-- Content whose tree is that of the lines at places of a source, which are the kept lines but
for orphaned comments. -/
structure KeepsTree (options : ExtractionOptions) (tree again : LineTree) (places : List Nat) :
    Prop where
  mem_places : ∀ i, i ∈ places ↔ IsKept options tree i ∧ tree.Survives (IsKept options tree) i
  /-- The lines have their contents and kinds, and their levels count from the least of them. -/
  isCutout : IsCutout again tree places
  /-- The parent of a line is kept, and its image is the parent of the image of the line. -/
  parent?_eq_some : ∀ k i, places[k]? = some i → ∀ p, tree.parent? i = some p →
    ∃ j, places[j]? = some p ∧ again.parent? k = some j
  parent?_eq_none : ∀ k i, places[k]? = some i → tree.parent? i = none → again.parent? k = none
  level_lt : ∀ depth, options.outline = some depth → ∀ line ∈ again.lines, line.level < depth

theorem keepsTree_of_isCutout {again : LineTree} (hcutout : IsCutout again tree places)
    (hmem : ∀ i, i ∈ places ↔ IsKept options tree i ∧ tree.Survives (IsKept options tree) i) :
    KeepsTree options tree again places where
  mem_places := hmem
  isCutout := hcutout
  parent?_eq_some := by
    intro k i hk p hparent
    obtain ⟨hkept, hsurvives⟩ := (hmem i).1 (List.mem_of_getElem? hk)
    have hencloses : tree.Encloses p i := Relation.ReflTransGen.single hparent
    refine hcutout.parent?_of_parent? hk hparent ((hmem p).2 ⟨hkept.of_parent? hparent, ?_⟩)
    exact hsurvives.of_encloses hencloses (lt_of_parent? hparent) hkept
  parent?_eq_none := fun _ _ => hcutout.parent?_eq_none
  level_lt := by
    intro depth houtline line hline
    obtain ⟨k, hk⟩ := List.mem_iff_getElem?.1 hline
    obtain ⟨i, hi⟩ := hcutout.exists_place (List.getElem?_eq_some_iff.1 hk).1
    have hkept := ((hmem i).1 (List.mem_of_getElem? hi)).1.2
    rw [houtline] at hkept
    have hlevel := hcutout.levelAt_eq hi
    rw [levelAt_of_getElem? hk] at hlevel
    exact (hlevel.trans_le (Nat.sub_le _ _)).trans_lt hkept

/-! ## Selectors and names to keep -/

/-- The root of a block that is asked for, by a selector or else by names to keep. -/
def IsRootAt (options : ExtractionOptions) (tree : LineTree) (i : Nat) : Prop :=
  match options.selector with
  | some text => ∃ selector, Selector.parse text = .ok selector ∧ selector.selects tree i = true
  | none => tree.IsNamedAt (splitNames options.keep) i

/-- A line in a block that is asked for. -/
def IsInBlock (options : ExtractionOptions) (tree : LineTree) (i : Nat) : Prop :=
  i < tree.lines.length ∧ tree.InRegion (IsRootAt options tree) i

theorem exists_choose_isInBlock (houtline : options.outline = none)
    (hway : (∃ text selector, options.selector = some text ∧ Selector.parse text = .ok selector) ∨
      options.selector = none ∧ splitNames options.keep ≠ []) (tree : LineTree) :
    ∃ lines summary, choose options tree = .ok (lines, summary) ∧
      tree.Chooses (tree.InRegion (IsRootAt options tree)) 0 lines := by
  rcases hway with ⟨text, selector, hselector, hparse⟩ | ⟨hselector, hkeep⟩
  · have hroot : IsRootAt options tree = fun i => selector.selects tree i = true := by
      funext i
      simp [IsRootAt, hselector, hparse]
    refine ⟨_, .selector text, ?_, hroot ▸ chooses_select tree selector⟩
    rw [choose, houtline, hselector]
    simp only [hparse]
  · have hroot : IsRootAt options tree = tree.IsNamedAt (splitNames options.keep) := by
      funext i
      rw [IsRootAt, hselector]
    have hnot : (splitNames options.keep).isEmpty = false := List.isEmpty_eq_false_iff.2 hkeep
    refine ⟨_, .sections (splitNames options.remove) (some (splitNames options.keep)), ?_,
      hroot ▸ chooses_keepNamed tree _⟩
    rw [choose, houtline, hselector]
    simp only [bySections, hnot, Bool.false_and, Bool.false_eq_true, if_false]

/-- What stands between the root of a block and a line in it is in the block. -/
theorem IsInBlock.of_encloses {a p : Nat} (h : IsInBlock options tree a)
    (hencloses : tree.Encloses a p) (hp : p < tree.lines.length) : IsInBlock options tree p := by
  obtain ⟨-, r, hroot, ha⟩ := h
  exact ⟨hp, r, hroot, ha.trans hencloses⟩

/-- Content whose tree is that of the lines at places of a source, which are the lines of blocks
but for orphaned comments. -/
structure KeepsBlocks (options : ExtractionOptions) (tree again : LineTree) (places : List Nat) :
    Prop where
  mem_places : ∀ i, i ∈ places ↔
    IsInBlock options tree i ∧ tree.Survives (IsInBlock options tree) i
  /-- The lines have their contents and kinds, and their levels count from the least of them. -/
  isCutout : IsCutout again tree places
  /-- Of the ancestors of a line that are left the nearest is the parent. -/
  parent?_of_isAncestor : ∀ k i, places[k]? = some i → (∃ a ∈ places, tree.IsAncestor a i) →
    ∃ j a, places[j]? = some a ∧ tree.IsAncestor a i ∧
      (∀ b ∈ places, tree.IsAncestor b i → tree.Encloses b a) ∧ again.parent? k = some j
  /-- A line of which no ancestor is left has no parent exactly if no line that is left before it
  is shallower in the source, and else the nearest of those is its parent. -/
  parent?_of_root : ∀ k i, places[k]? = some i → (∀ a ∈ places, ¬tree.IsAncestor a i) →
    (again.parent? k = none ↔ ∀ m ∈ places, m < i → tree.levelAt i ≤ tree.levelAt m) ∧
    ∀ j p, places[j]? = some p → (again.parent? k = some j ↔
      p < i ∧ tree.levelAt p < tree.levelAt i ∧
        ∀ m ∈ places, p < m → m < i → tree.levelAt i ≤ tree.levelAt m)
  /-- It stands at the margin exactly if no line that is left is shallower in the source. -/
  levelAt_of_root : ∀ k i, places[k]? = some i → (∀ a ∈ places, ¬tree.IsAncestor a i) →
    (again.levelAt k = 0 ↔ ∀ m ∈ places, tree.levelAt i ≤ tree.levelAt m)

theorem keepsBlocks_of_isCutout {again : LineTree} (hcutout : IsCutout again tree places)
    (hmem : ∀ i, i ∈ places ↔
      IsInBlock options tree i ∧ tree.Survives (IsInBlock options tree) i) :
    KeepsBlocks options tree again places where
  mem_places := hmem
  isCutout := hcutout
  parent?_of_isAncestor := by
    rintro k i hk ⟨a, ha, hancestor⟩
    obtain ⟨hinBlock, hsurvives⟩ := (hmem i).1 (List.mem_of_getElem? hk)
    obtain ⟨p, hparent, hencloses⟩ := isAncestor_iff.1 hancestor
    have hpi := lt_of_parent? hparent
    -- A line between two lines of a block belongs to it, so the parent is left as well.
    have hp : p ∈ places := by
      refine (hmem p).2 ⟨?_, ?_⟩
      · exact ((hmem a).1 ha).1.of_encloses hencloses (hpi.trans hinBlock.1)
      · exact hsurvives.of_encloses (Relation.ReflTransGen.single hparent) hpi hinBlock
    obtain ⟨j, hj, hagain⟩ := hcutout.parent?_of_parent? hk hparent hp
    refine ⟨j, p, hj, Relation.TransGen.single hparent, fun b _ hb => ?_, hagain⟩
    obtain ⟨q, hq, hbq⟩ := isAncestor_iff.1 hb
    obtain rfl : p = q := Option.some.inj (hparent.symm.trans hq)
    exact hbq
  parent?_of_root := fun _ _ hk _ =>
    ⟨hcutout.parent?_eq_none_iff hk, fun _ _ hj => hcutout.parent?_eq_some_iff hk hj⟩
  levelAt_of_root := fun _ _ hk _ => hcutout.levelAt_eq_zero_iff hk

end Extraction

/-- An outline, and names to remove, keep the tree: every line that is left has its content, its
kind and its parent, and all levels are lower by the least level that is left. -/
theorem extract_keepsTree (hvisible : ∃ text ∈ Text.lines source, Text.trim text ≠ [])
    (hconflict : (options.rejectConflicts && decide (1 < options.modes.length)) = false)
    (hwrapper : options.removeWrapper = false)
    (hway : options.outline.isSome = true ∨
      options.selector = none ∧ splitNames options.keep = []) :
    ∃ result places, extract options source = .ok result ∧
      KeepsTree options (.ofSource options.layout source)
        (.ofSource options.layout result.content) places := by
  obtain ⟨lines, summary, chosen, hchoose, hlines, hkept⟩ :=
    exists_choose_isKept hway (.ofSource options.layout source)
  obtain ⟨result, places, hextract, hcutout, hmem⟩ :=
    exists_extract hvisible hconflict hwrapper rfl hchoose hlines
  have hchosen := funext fun i => propext (hkept i)
  refine ⟨result, places, hextract, keepsTree_of_isCutout hcutout fun i => ?_⟩
  rw [hmem, hchosen]

/-- A page with a comment about its menu. -/
def pageWithMenu : Text :=
  "html\n  head\n    title T\n  body\n      p Text\n      / menu\n      nav\n".toList

/-- Without the menu its comment goes as well, and the jump below the body stays. -/
theorem extract_keepsTree_pageWithMenu :
    ∃ result places, extract .standard pageWithMenu = .ok result ∧
      result.content = "html\n  body\n      p Text\n".toList ∧
      KeepsTree .standard (.ofSource .standard pageWithMenu) (.ofSource .standard result.content)
        places := by
  obtain ⟨result, places, hextract, hkeeps⟩ :=
    @extract_keepsTree .standard pageWithMenu (by decide +kernel) rfl rfl
      (Or.inr ⟨rfl, by decide +kernel⟩)
  have hcontent : (extract .standard pageWithMenu).map Extract.content =
      .ok "html\n  body\n      p Text\n".toList := by
    decide +kernel
  rw [hextract] at hcontent
  exact ⟨result, places, hextract, Except.ok.inj hcontent, hkeeps⟩

/-- A selector, and names to keep, keep the tree of each block. Where blocks come from different
depths, a root stands below the nearest shallower line that is left before it. -/
theorem extract_keepsBlocks (hvisible : ∃ text ∈ Text.lines source, Text.trim text ≠ [])
    (hconflict : (options.rejectConflicts && decide (1 < options.modes.length)) = false)
    (hwrapper : options.removeWrapper = false) (houtline : options.outline = none)
    (hway : (∃ text selector, options.selector = some text ∧ Selector.parse text = .ok selector) ∨
      options.selector = none ∧ splitNames options.keep ≠ []) :
    ∃ result places, extract options source = .ok result ∧
      KeepsBlocks options (.ofSource options.layout source)
        (.ofSource options.layout result.content) places := by
  obtain ⟨lines, summary, hchoose, hlines⟩ :=
    exists_choose_isInBlock houtline hway (.ofSource options.layout source)
  obtain ⟨result, places, hextract, hcutout, hmem⟩ :=
    exists_extract hvisible hconflict hwrapper rfl hchoose hlines
  exact ⟨result, places, hextract, keepsBlocks_of_isCutout hcutout hmem⟩

/-- Two cards at different depths, the second inside of something that is no card. -/
def cardsAtTwoDepths : Text :=
  "p.card A\ndiv\n  p.card B\n".toList

/-- The standard options with a selector for cards. -/
def selectingCards : ExtractionOptions :=
  { ExtractionOptions.standard with selector := some ".card".toList }

theorem extract_keepsBlocks_cards :
    ∃ result places, extract selectingCards cardsAtTwoDepths = .ok result ∧
      KeepsBlocks selectingCards (.ofSource .standard cardsAtTwoDepths)
        (.ofSource .standard result.content) places :=
  extract_keepsBlocks (by decide +kernel) rfl rfl rfl
    (Or.inl ⟨_, .simple (.parse ".card".toList), rfl, by decide +kernel⟩)

/-- Neither card encloses the other, and the source has no jump. But written out and read again,
the second card stands below the first. -/
theorem extract_cards_nested :
    let tree := LineTree.ofSource .standard cardsAtTwoDepths
    let content := "p.card A\n  p.card B\n".toList
    (validate .standard cardsAtTwoDepths).errors = [] ∧
    (extract selectingCards cardsAtTwoDepths).map Extract.content = .ok content ∧
    IsCutout (.ofSource .standard content) tree [0, 2] ∧
    (∀ a ∈ [0, 2], ¬tree.IsAncestor a 2) ∧
    (LineTree.ofSource .standard content).parent? 1 = some 0 ∧
    (LineTree.ofSource .standard content).levelAt 1 = 1 := by
  intro tree content
  refine ⟨by decide +kernel, by decide +kernel, ⟨⟨by decide, by decide +kernel⟩, by decide +kernel⟩,
    ?_, by decide +kernel, by decide +kernel⟩
  intro a ha hancestor
  obtain ⟨p, hparent, hencloses⟩ := isAncestor_iff.1 hancestor
  have hdiv : tree.parent? 2 = some 1 := by decide +kernel
  obtain rfl : 1 = p := Option.some.inj (hdiv.symm.trans hparent)
  have hlevel : ¬tree.levelAt 0 < tree.levelAt 1 := by decide +kernel
  rcases List.mem_pair.1 ha with rfl | rfl
  · exact hlevel (hencloses.deeper.2 1 Nat.zero_lt_one le_rfl)
  · exact absurd hencloses.deeper.1 (by decide)

end SlimTemplate
