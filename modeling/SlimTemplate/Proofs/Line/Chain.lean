import Mathlib.Data.List.Chain
import Mathlib.Data.List.Sort
import Mathlib.Data.List.TakeWhile
import Mathlib.Order.Bounds.Defs
import SlimTemplate.Proofs.Line.Ancestor

/-!
# Open lines and chains of parents

While the lines are read from top to bottom, the stack holds the line read last and all its
ancestors, the nearest first: below each entry stand the lines that stayed open when that line
came. So the stack gives not only the parent of a line but the whole chain of parents above it.

## Main definitions

* `LineTree.openBefore`: the lines that are open before a place.
* `LineTree.stillOpen`: those of them that the line at the place leaves open.
* `LineTree.ancestors`: the chain of parents above a line, read off the stack.
* `LineTree.IsParentChain`: lines from one upwards, each the parent of the one before it.
* `LineTree.scanBack`: the nearest shallower line before a place, looked for backwards.

## Main statements

* `LineTree.IsStack.step`, `LineTree.isStack_openBefore`: what the stack holds after one more line
  and at every place.
* `LineTree.openBefore_succ_eq_map`: behind a line it holds that line and its ancestors.
* `LineTree.isParentChain_iff`: a line has one chain of parents, and it ends.
* `LineTree.mem_ancestors_iff`: the lines in the chain are the ancestors.
* `LineTree.parent?_isNearest`: the stack finds what looking backwards finds, and chains of parents
  go strictly down in place and level.
-/

namespace SlimTemplate.LineTree

variable {tree : LineTree} {a i p level : Nat} {chain : List Nat} {stack : List (Nat × Nat)}

/-! ## The stack of open lines -/

/-- The lines that are open before a place, by number and level, the innermost first. -/
def openBefore (tree : LineTree) (i : Nat) : List (Nat × Nat) :=
  openedAfter 0 [] (tree.lines.take i)

/-- The lines that are open before a place and shallower than the line there, which leaves them
open. -/
def stillOpen (tree : LineTree) (i : Nat) : List (Nat × Nat) :=
  (tree.openBefore i).dropWhile fun (_, level) => tree.levelAt i ≤ level

/-- Each entry of a stack is a line with its level, and below it stand the lines that it left
open. -/
def IsStack (tree : LineTree) (stack : List (Nat × Nat)) : Prop :=
  ∀ p level rest, (p, level) :: rest <:+ stack →
    level = tree.levelAt p ∧ rest = tree.stillOpen p

theorem levelAt_of_length_le (hi : tree.lines.length ≤ i) : tree.levelAt i = 0 := by
  rw [levelAt, List.getElem?_eq_none hi]
  rfl

theorem stillOpen_of_length_le (hi : tree.lines.length ≤ i) : tree.stillOpen i = [] := by
  rw [stillOpen, levelAt_of_length_le hi]
  exact List.dropWhile_eq_nil_iff.2 fun entry _ => decide_eq_true (Nat.zero_le entry.2)

theorem parent?_of_length_le (hi : tree.lines.length ≤ i) : tree.parent? i = none := by
  by_contra hne
  obtain ⟨p, hp⟩ := Option.ne_none_iff_exists'.1 hne
  exact absurd (lt_length_of_parent? hp) (Nat.not_lt.2 hi)

theorem openBefore_succ (hi : i < tree.lines.length) :
    tree.openBefore (i + 1) = (i, tree.levelAt i) :: tree.stillOpen i := by
  have hlength : (tree.lines.take i).length = i := List.length_take_of_le hi.le
  rw [openBefore, List.take_add_one, List.getElem?_eq_getElem hi, openedAfter_append, hlength,
    Nat.zero_add, stillOpen, levelAt_of_getElem? (List.getElem?_eq_getElem hi)]
  rfl

/-- Reading one more line puts it on top of the lines that it leaves open. -/
theorem IsStack.step (h : tree.IsStack (tree.openBefore i)) (hi : i < tree.lines.length) :
    tree.IsStack (tree.openBefore (i + 1)) := by
  intro p level rest hsuffix
  -- An entry is the new line on top, or one that was there before with the same entries below it.
  rw [openBefore_succ hi, List.suffix_cons_iff] at hsuffix
  rcases hsuffix with htop | hbelow
  · obtain ⟨hentry, rfl⟩ := List.cons.inj htop
    obtain ⟨rfl, rfl⟩ := Prod.mk.inj hentry
    exact ⟨rfl, rfl⟩
  · exact h p level rest (hbelow.trans (List.dropWhile_suffix _))

/-- At every place the open lines are such a stack. -/
theorem isStack_openBefore (hi : i ≤ tree.lines.length) : tree.IsStack (tree.openBefore i) := by
  induction i with
  | zero =>
    intro p level rest hsuffix
    exact absurd (List.eq_nil_of_suffix_nil hsuffix) (List.cons_ne_nil _ _)
  | succ i ih => exact (ih (Nat.le_of_succ_le hi)).step hi

theorem isStack_stillOpen (tree : LineTree) (i : Nat) : tree.IsStack (tree.stillOpen i) := by
  intro p level rest hsuffix
  rcases Nat.lt_or_ge i tree.lines.length with hi | hi
  · exact isStack_openBefore hi.le p level rest (hsuffix.trans (List.dropWhile_suffix _))
  · rw [stillOpen_of_length_le hi] at hsuffix
    exact absurd (List.eq_nil_of_suffix_nil hsuffix) (List.cons_ne_nil _ _)

theorem IsStack.level_eq (h : tree.IsStack stack) (hmem : (p, level) ∈ stack) :
    level = tree.levelAt p := by
  obtain ⟨above, below, rfl⟩ := List.append_of_mem hmem
  exact (h p level below (List.suffix_append _ _)).1

/-! ## Chains of parents -/

/-- The chain of parents above a line, the nearest first. -/
def ancestors (tree : LineTree) (i : Nat) : List Nat :=
  (tree.stillOpen i).map (·.1)

/-- Behind a line the stack holds that line and its ancestors, each with its level. -/
theorem openBefore_succ_eq_map (hi : i < tree.lines.length) :
    tree.openBefore (i + 1) = (i :: tree.ancestors i).map fun p => (p, tree.levelAt p) := by
  have hlevels : ∀ entry ∈ tree.stillOpen i, (entry.1, tree.levelAt entry.1) = entry := by
    rintro ⟨p, level⟩ hmem
    rw [← (isStack_stillOpen tree i).level_eq hmem]
  rw [openBefore_succ hi, ancestors, List.map_cons, List.map_map]
  exact congrArg _ ((List.map_congr_left hlevels).trans (List.map_id _)).symm

theorem head?_ancestors (tree : LineTree) (i : Nat) :
    (tree.ancestors i).head? = tree.parent? i := by
  obtain ⟨lines⟩ := tree
  rw [ancestors, List.head?_map]
  cases hline : lines[i]? with
  | none =>
    have hi : lines.length ≤ i := List.getElem?_eq_none_iff.1 hline
    rw [stillOpen_of_length_le hi, parent?_of_length_le hi]
    rfl
  | some line =>
    obtain ⟨front, back, rfl, rfl⟩ := exists_append_of_getElem? hline
    rw [stillOpen, openBefore, levelAt_of_getElem? hline, List.take_left, parent?_append_cons]

theorem ancestors_of_parent?_eq_none (h : tree.parent? i = none) : tree.ancestors i = [] := by
  rwa [← head?_ancestors, List.head?_eq_none_iff] at h

theorem ancestors_of_parent?_eq_some (h : tree.parent? i = some p) :
    tree.ancestors i = p :: tree.ancestors p := by
  rw [← head?_ancestors, ancestors, List.head?_map] at h
  obtain ⟨⟨q, level⟩, hentry, rfl⟩ := Option.map_eq_some_iff.1 h
  obtain ⟨rest, hrest⟩ := List.head?_eq_some_iff.1 hentry
  have hstack := isStack_stillOpen tree i q level rest (hrest ▸ List.suffix_rfl)
  rw [ancestors, hrest, List.map_cons, hstack.2]
  rfl

/-- Lines from one upwards, each the parent of the one before it, up to a line without a
parent. -/
inductive IsParentChain (tree : LineTree) : Nat → List Nat → Prop where
  | root {i : Nat} (h : tree.parent? i = none) : IsParentChain tree i []
  | step {i p : Nat} {chain : List Nat} (h : tree.parent? i = some p)
      (hchain : IsParentChain tree p chain) : IsParentChain tree i (p :: chain)

theorem isParentChain_ancestors (tree : LineTree) (i : Nat) :
    tree.IsParentChain i (tree.ancestors i) := by
  induction i using Nat.strongRecOn with
  | ind i ih =>
    cases hparent : tree.parent? i with
    | none =>
      rw [ancestors_of_parent?_eq_none hparent]
      exact .root hparent
    | some p =>
      rw [ancestors_of_parent?_eq_some hparent]
      exact .step hparent (ih p (lt_of_parent? hparent))

/-- Every line has one chain of parents that ends, which the stack holds. -/
theorem isParentChain_iff : tree.IsParentChain i chain ↔ chain = tree.ancestors i := by
  constructor
  · intro h
    induction h with
    | root h => rw [ancestors_of_parent?_eq_none h]
    | step h _ ih => rw [ancestors_of_parent?_eq_some h, ih]
  · rintro rfl
    exact isParentChain_ancestors tree i

theorem encloses_iff_eq_or_isAncestor :
    tree.Encloses a i ↔ i = a ∨ tree.IsAncestor a i :=
  Relation.reflTransGen_iff_eq_or_transGen

/-- The lines in the chain of parents are the ancestors. -/
theorem mem_ancestors_iff : a ∈ tree.ancestors i ↔ tree.IsAncestor a i := by
  induction i using Nat.strongRecOn with
  | ind i ih =>
    rw [isAncestor_iff]
    cases hparent : tree.parent? i with
    | none => simp [ancestors_of_parent?_eq_none hparent]
    | some p =>
      have hcons : a ∈ tree.ancestors i ↔ tree.Encloses a p := by
        rw [ancestors_of_parent?_eq_some hparent, List.mem_cons, ih p (lt_of_parent? hparent),
          encloses_iff_eq_or_isAncestor, eq_comm]
      simpa using hcons

instance (tree : LineTree) (a i : Nat) : Decidable (tree.IsAncestor a i) :=
  decidable_of_iff (a ∈ tree.ancestors i) mem_ancestors_iff

theorem IsParentChain.isChain (h : tree.IsParentChain i chain) :
    (i :: chain).IsChain fun i p => tree.parent? i = some p := by
  induction h with
  | root _ => exact List.isChain_singleton _
  | step h _ ih => exact List.isChain_cons_cons.2 ⟨h, ih⟩

theorem IsParentChain.sortedGT (h : tree.IsParentChain i chain) : (i :: chain).SortedGT :=
  (h.isChain.imp fun _ _ => lt_of_parent?).sortedGT

theorem IsParentChain.sortedGT_levels (h : tree.IsParentChain i chain) :
    ((i :: chain).map tree.levelAt).SortedGT := by
  refine List.IsChain.sortedGT ((List.isChain_map _).2 (h.isChain.imp fun i p hparent => ?_))
  exact (parent?_eq_some_iff.1 hparent).2.2.1

/-! ## Looking backwards -/

/-- The nearest of the lines before a place that is shallower than `level`. -/
def scanBack (tree : LineTree) (level : Nat) : Nat → Option Nat
  | 0 => none
  | i + 1 => if tree.levelAt i < level then some i else scanBack tree level i

theorem scanBack_eq_some_iff : tree.scanBack level i = some p ↔
    p < i ∧ tree.levelAt p < level ∧ ∀ m, p < m → m < i → level ≤ tree.levelAt m := by
  induction i with
  | zero => simp [scanBack]
  | succ i ih =>
    rw [scanBack]
    split
    · next hlevel =>
      rw [Option.some_inj]
      constructor
      · rintro rfl
        exact ⟨Nat.lt_succ_self i, hlevel, fun m hm hmi => by omega⟩
      -- A line before this one would have to be no shallower than it.
      · rintro ⟨hp, -, hbetween⟩
        by_contra hne
        exact absurd (hbetween i (by omega) (Nat.lt_succ_self i)) (Nat.not_le.2 hlevel)
    · next hlevel =>
      rw [ih]
      constructor
      · rintro ⟨hp, hshallow, hbetween⟩
        refine ⟨Nat.lt_succ_of_lt hp, hshallow, fun m hm hmi => ?_⟩
        rcases (Nat.lt_succ_iff.1 hmi).eq_or_lt with rfl | hmi
        · exact Nat.le_of_not_lt hlevel
        · exact hbetween m hm hmi
      · rintro ⟨hp, hshallow, hbetween⟩
        rcases (Nat.lt_succ_iff.1 hp).eq_or_lt with rfl | hp
        · exact absurd hshallow hlevel
        · exact ⟨hp, hshallow, fun m hm hmi => hbetween m hm (Nat.lt_succ_of_lt hmi)⟩

theorem parent?_eq_scanBack (tree : LineTree) (i : Nat) :
    tree.parent? i = tree.scanBack (tree.levelAt i) i := by
  apply Option.ext
  intro p
  rw [parent?_eq_some_iff, scanBack_eq_some_iff, and_iff_right_iff_imp]
  -- Beyond the last line there is no level that another could be below.
  rintro ⟨-, hlevel, -⟩
  by_contra hi
  rw [levelAt_of_length_le (Nat.le_of_not_lt hi)] at hlevel
  exact Nat.not_lt_zero _ hlevel

theorem parent?_eq_some_iff_isGreatest : tree.parent? i = some p ↔
    IsGreatest {j | j < i ∧ tree.levelAt j < tree.levelAt i} p := by
  rw [parent?_eq_scanBack, scanBack_eq_some_iff, ← and_assoc]
  apply and_congr_right
  intro _
  constructor
  · rintro hbetween m ⟨hmi, hlevel⟩
    by_contra hpm
    exact absurd (hbetween m (Nat.lt_of_not_le hpm) hmi) (Nat.not_le.2 hlevel)
  · intro hgreatest m hpm hmi
    by_contra hlevel
    exact absurd (hgreatest ⟨hmi, Nat.lt_of_not_le hlevel⟩) (Nat.not_le.2 hpm)

theorem parent?_eq_none_iff_not_exists :
    tree.parent? i = none ↔ ¬∃ j < i, tree.levelAt j < tree.levelAt i := by
  push Not
  rcases Nat.lt_or_ge i tree.lines.length with hi | hi
  · exact parent?_eq_none_iff hi
  · rw [parent?_of_length_le hi, levelAt_of_length_le hi]
    exact iff_of_true rfl fun j _ => Nat.zero_le _

theorem levelAt_of_parent?_eq_none (hmargin : tree.levelAt 0 = 0) (h : tree.parent? i = none) :
    tree.levelAt i = 0 := by
  rcases i.eq_zero_or_pos with rfl | hi
  · exact hmargin
  · by_contra hlevel
    exact parent?_eq_none_iff_not_exists.1 h ⟨0, hi, by omega⟩

/-- The parent that the stack finds is the one that looking backwards finds, the last line before
that is shallower, and there is none exactly if no line before is shallower. Every line has one
chain of parents, which ends, and along it places and levels go strictly down. -/
theorem parent?_isNearest (tree : LineTree) (i : Nat) :
    tree.parent? i = tree.scanBack (tree.levelAt i) i ∧
    (∀ p, tree.parent? i = some p ↔
      IsGreatest {j | j < i ∧ tree.levelAt j < tree.levelAt i} p) ∧
    (tree.parent? i = none ↔ ¬∃ j < i, tree.levelAt j < tree.levelAt i) ∧
    (∃! chain, tree.IsParentChain i chain) ∧
    ∀ chain, tree.IsParentChain i chain →
      (i :: chain).SortedGT ∧ ((i :: chain).map tree.levelAt).SortedGT := by
  refine ⟨parent?_eq_scanBack tree i, fun p => parent?_eq_some_iff_isGreatest,
    parent?_eq_none_iff_not_exists, ?_, ?_⟩
  · exact ⟨tree.ancestors i, isParentChain_ancestors tree i, fun _ => isParentChain_iff.1⟩
  · exact fun chain hchain => ⟨hchain.sortedGT, hchain.sortedGT_levels⟩

/-- A list whose items stand at levels of their own: the first skips two levels, the second goes
back to one that was never opened. -/
def unevenList : LineTree :=
  .ofSource .standard "ul\n      li A\n  li B\n    p C\np D\n".toList

example : unevenList.parents = [none, some 0, some 0, some 2, none] ∧
    unevenList.ancestors 3 = [2, 0] := by
  decide +kernel

end SlimTemplate.LineTree
