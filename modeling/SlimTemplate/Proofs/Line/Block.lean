import Mathlib.Data.Set.BooleanAlgebra
import Mathlib.Order.CompletePartialOrder
import Mathlib.Order.Interval.Set.Basic
import SlimTemplate.Proofs.Line.Chain

/-!
# Blocks

The block of a line reaches from the line to its block end. That end is found by looking forwards
for a line that is no deeper, while parents are found by looking backwards; both give one tree, so
a block consists of the line and everything it is an ancestor of.

## Main definitions

* `LineTree.block`: the places of a block.

## Main statements

* `LineTree.lt_blockEnd_iff`: which places lie before the end of a block.
* `LineTree.mem_block_iff`: a block holds what its first line encloses.
* `LineTree.block_eq_descendants`: a block is a line with its descendants, and two blocks are
  disjoint or one contains the other.
-/

namespace SlimTemplate.LineTree

variable {tree : LineTree} {a b i j k : Nat} {root : SlimLine} {after : List SlimLine}

/-- The places of a line and of what stands before its block end. -/
def block (tree : LineTree) (i : Nat) : Set Nat :=
  Set.Ico i (tree.blockEnd i)

/-- A line after another is one of its descendants if it and all lines between are deeper. -/
theorem lt_descendantCount_iff : k < descendantCount root after ↔
    k < after.length ∧ ∀ m ≤ k, ∀ line, after[m]? = some line → root.level < line.level := by
  rw [descendantCount, List.takeWhile_eq_take_findIdx_not, List.length_take,
    Nat.min_eq_left List.findIdx_le_length, List.lt_findIdx_iff, ← exists_prop]
  apply exists_congr
  intro hk
  apply forall₂_congr
  intro m hm
  rw [List.getElem?_eq_getElem (hm.trans_lt hk)]
  simp

theorem blockEnd_of_length_le (hi : tree.lines.length ≤ i) : tree.blockEnd i = i := by
  rw [blockEnd, List.drop_eq_nil_of_le hi]

/-- What follows a line lies before its block end exactly if everything up to there is deeper. -/
theorem lt_blockEnd_iff (hi : i < tree.lines.length) (hij : i ≤ j) : j < tree.blockEnd i ↔
    j < tree.lines.length ∧ ∀ m, i < m → m ≤ j → tree.levelAt i < tree.levelAt m := by
  have hend : tree.blockEnd i =
      i + 1 + descendantCount tree.lines[i] (tree.lines.drop (i + 1)) := by
    rw [blockEnd, List.drop_eq_getElem_cons hi]
  have hlevel : tree.levelAt i = tree.lines[i].level :=
    levelAt_of_getElem? (List.getElem?_eq_getElem hi)
  rcases hij.eq_or_lt with rfl | hij
  · exact iff_of_true (by omega) ⟨hi, fun m hlow hhigh => absurd hlow (Nat.not_lt.2 hhigh)⟩
  obtain ⟨k, rfl⟩ := Nat.exists_eq_add_of_le hij
  rw [hend, Nat.add_lt_add_iff_left, lt_descendantCount_iff, List.length_drop, hlevel]
  -- The line at `m` of those behind `i` is the line at `i + 1 + m`.
  constructor
  · rintro ⟨hk, hdeeper⟩
    refine ⟨by omega, fun m hlow hhigh => ?_⟩
    obtain ⟨m, rfl⟩ := Nat.exists_eq_add_of_le hlow
    have hm : i + 1 + m < tree.lines.length := by omega
    have hline := List.getElem?_eq_getElem hm
    rw [levelAt_of_getElem? hline]
    exact hdeeper m (by omega) _ (by rwa [List.getElem?_drop])
  · rintro ⟨hj, hdeeper⟩
    refine ⟨by omega, fun m hm line hline => ?_⟩
    rw [List.getElem?_drop] at hline
    have hlevel := hdeeper (i + 1 + m) (by omega) (by omega)
    rwa [levelAt_of_getElem? hline] at hlevel

theorem Encloses.lt_length (h : tree.Encloses a i) (ha : a < tree.lines.length) :
    i < tree.lines.length := by
  cases h with
  | refl => exact ha
  | tail _ hparent => exact lt_length_of_parent? hparent

/-- A block holds exactly what its first line encloses. -/
theorem mem_block_iff :
    j ∈ tree.block i ↔ i < tree.lines.length ∧ tree.Encloses i j := by
  rw [block, Set.mem_Ico]
  constructor
  · rintro ⟨hij, hend⟩
    have hi : i < tree.lines.length := by
      by_contra hi
      rw [blockEnd_of_length_le (Nat.le_of_not_lt hi)] at hend
      omega
    obtain ⟨hj, hdeeper⟩ := (lt_blockEnd_iff hi hij).1 hend
    exact ⟨hi, (encloses_iff hj).2 ⟨hij, hdeeper⟩⟩
  · rintro ⟨hi, hencloses⟩
    obtain ⟨hij, hdeeper⟩ := hencloses.deeper
    exact ⟨hij, (lt_blockEnd_iff hi hij).2 ⟨hencloses.lt_length hi, hdeeper⟩⟩

/-- What stands between a line and another that it encloses is enclosed as well. -/
theorem Encloses.of_between (h : tree.Encloses a i) (hab : a ≤ b) (hbi : b ≤ i)
    (hb : b < tree.lines.length) : tree.Encloses a b :=
  (encloses_iff hb).2 ⟨hab, fun m hlow hhigh => h.deeper.2 m hlow (hhigh.trans hbi)⟩

theorem Encloses.block_subset (h : tree.Encloses a b) : tree.block b ⊆ tree.block a := by
  intro j hj
  obtain ⟨hb, hencloses⟩ := mem_block_iff.1 hj
  exact mem_block_iff.2 ⟨h.deeper.1.trans_lt hb, h.trans hencloses⟩

/-- Two blocks with a place in common start at lines of which one encloses the other. -/
theorem disjoint_block_or_subset (tree : LineTree) (a b : Nat) :
    Disjoint (tree.block a) (tree.block b) ∨ tree.block a ⊆ tree.block b ∨
      tree.block b ⊆ tree.block a := by
  rw [or_iff_not_imp_left, Set.not_disjoint_iff]
  rintro ⟨i, hai, hbi⟩
  obtain ⟨ha, hai⟩ := mem_block_iff.1 hai
  obtain ⟨hb, hbi⟩ := mem_block_iff.1 hbi
  -- The later of the two first lines stands between the other one and the common place.
  rcases Nat.le_total a b with hab | hba
  · exact Or.inr (hai.of_between hab hbi.deeper.1 hb).block_subset
  · exact Or.inl (hbi.of_between hba hai.deeper.1 ha).block_subset

/-- The block of a line consists of the line and the lines that have it in their chain of parents,
so two blocks are disjoint or one contains the other. -/
theorem block_eq_descendants (hi : i < tree.lines.length) :
    (∀ j, (i ≤ j ∧ j < tree.blockEnd i) ↔ j = i ∨ tree.IsAncestor i j) ∧
    ∀ k, Disjoint (Set.Ico i (tree.blockEnd i)) (Set.Ico k (tree.blockEnd k)) ∨
      Set.Ico i (tree.blockEnd i) ⊆ Set.Ico k (tree.blockEnd k) ∨
      Set.Ico k (tree.blockEnd k) ⊆ Set.Ico i (tree.blockEnd i) := by
  refine ⟨fun j => ?_, disjoint_block_or_subset tree i⟩
  rw [← encloses_iff_eq_or_isAncestor, ← Set.mem_Ico, ← block, mem_block_iff, and_iff_right hi]

/-- The second item of the list holds the text below it, and the first item is no part of it. -/
theorem block_eq_descendants_unevenList :
    2 < unevenList.lines.length ∧ unevenList.blockEnd 2 = 4 ∧
    (∀ j, (2 ≤ j ∧ j < 4) ↔ j = 2 ∨ unevenList.IsAncestor 2 j) ∧
    ∀ k, Disjoint (Set.Ico 2 4) (Set.Ico k (unevenList.blockEnd k)) ∨
      Set.Ico 2 4 ⊆ Set.Ico k (unevenList.blockEnd k) ∨
      Set.Ico k (unevenList.blockEnd k) ⊆ Set.Ico 2 4 := by
  have hline : 2 < unevenList.lines.length := by decide +kernel
  have hend : unevenList.blockEnd 2 = 4 := by decide +kernel
  have hblock := block_eq_descendants hline
  rw [hend] at hblock
  exact ⟨hline, hend, hblock⟩

end SlimTemplate.LineTree
