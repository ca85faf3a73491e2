import Mathlib.Data.Nat.Find
import Mathlib.Logic.Relation
import Mathlib.Order.Basic
import Mathlib.Tactic.ByContra
import Mathlib.Tactic.Push
import SlimTemplate.Proofs.Line.Tree

/-!
# Ancestors of a line

The parent of a line is the nearest line before it that is shallower. So a line encloses another,
as its parent, the parent of its parent and so on, exactly if everything after the first up to the
second is deeper than the first.

## Main definitions

* `LineTree.levelAt`: the level of the line at a place.
* `LineTree.Encloses`: a line and all that stands below it.
* `LineTree.IsAncestor`: a line and what stands below it without the line itself.

## Main statements

* `LineTree.parent?_eq_some_iff`, `LineTree.parent?_eq_none_iff`: which line is the parent.
* `LineTree.encloses_iff`: which lines enclose a line.
-/

namespace SlimTemplate.LineTree

variable {tree : LineTree} {a i p : Nat}

/-- The level of the line at a place, and zero beyond the last line. -/
def levelAt (tree : LineTree) (place : Nat) : Nat :=
  (tree.lines[place]?.map (·.level)).getD 0

theorem levelAt_of_getElem? {line : SlimLine} (h : tree.lines[i]? = some line) :
    tree.levelAt i = line.level := by
  rw [levelAt, h]
  rfl

theorem getElem?_of_drop {line : SlimLine} {lines : List SlimLine}
    (h : tree.lines.drop i = line :: lines) : tree.lines[i]? = some line := by
  rw [← List.head?_drop, h]
  rfl

theorem drop_succ_of_drop {line : SlimLine} {lines : List SlimLine}
    (h : tree.lines.drop i = line :: lines) : tree.lines.drop (i + 1) = lines := by
  rw [← List.tail_drop, h]
  rfl

theorem getElem?_map_level (hi : i < tree.lines.length) :
    (tree.lines.map (·.level))[i]? = some (tree.levelAt i) := by
  rw [List.getElem?_map, List.getElem?_eq_getElem hi, levelAt_of_getElem? (List.getElem?_eq_getElem hi)]
  rfl

/-- A level that stands among those between two places is the level at a place between them. -/
theorem exists_levelAt_of_mem {front between back : List Nat} {l : Nat}
    (h : tree.lines.map (·.level) = front ++ between ++ back) (hl : l ∈ between) :
    ∃ m, front.length ≤ m ∧ m < front.length + between.length ∧ tree.levelAt m = l := by
  obtain ⟨k, hk, rfl⟩ := List.getElem_of_mem hl
  refine ⟨front.length + k, Nat.le_add_right _ _, by omega, ?_⟩
  have hget : (tree.lines.map (·.level))[front.length + k]? = some between[k] := by
    rw [h, List.append_assoc, List.getElem?_append_right (Nat.le_add_right _ _),
      Nat.add_sub_cancel_left, List.getElem?_append_left hk, List.getElem?_eq_getElem hk]
  rw [List.getElem?_map] at hget
  rw [levelAt, hget]
  rfl

/-! ## Parents -/

theorem parent?_of_nearest (hi : i < tree.lines.length) (hp : p < i)
    (hlevel : tree.levelAt p < tree.levelAt i)
    (hbetween : ∀ m, p < m → m < i → tree.levelAt i ≤ tree.levelAt m) :
    tree.parent? i = some p := by
  obtain ⟨front, c, hfront, hlength⟩ := exists_append_of_getElem? (getElem?_map_level hi)
  have hpfront : front[p]? = some (tree.levelAt p) := by
    have hget := getElem?_map_level (hp.trans hi)
    rwa [hfront, List.getElem?_append_left (by omega)] at hget
  obtain ⟨a, b, rfl, rfl⟩ := exists_append_of_getElem? hpfront
  rw [List.length_append, List.length_cons] at hlength
  have hb : ∀ l ∈ b, tree.levelAt i ≤ l := by
    intro l hl
    have hsplit : tree.lines.map (·.level) = (a ++ [tree.levelAt a.length]) ++ b ++
        tree.levelAt i :: c := by
      rw [hfront]
      simp
    obtain ⟨m, hlow, hhigh, rfl⟩ := exists_levelAt_of_mem hsplit hl
    rw [List.length_append, List.length_singleton] at hlow hhigh
    exact hbetween m (by omega) (by omega)
  have hplace : a.length + 1 + b.length = i := by omega
  rw [← hplace]
  exact parent?_eq_some hfront hlevel hb

theorem parent?_of_shallowest (hi : i < tree.lines.length)
    (h : ∀ m < i, tree.levelAt i ≤ tree.levelAt m) : tree.parent? i = none := by
  obtain ⟨a, c, ha, rfl⟩ := exists_append_of_getElem? (getElem?_map_level hi)
  refine parent?_eq_none ha ?_
  intro l hl
  have hsplit : tree.lines.map (·.level) = [] ++ a ++ tree.levelAt a.length :: c := ha
  obtain ⟨m, -, hm, rfl⟩ := exists_levelAt_of_mem hsplit hl
  exact h m (by simpa using hm)

/-- Among the lines before another of which one is shallower there is a nearest one. -/
theorem exists_nearest (h : ∃ m < i, tree.levelAt m < tree.levelAt i) :
    ∃ p < i, tree.levelAt p < tree.levelAt i ∧
      ∀ m, p < m → m < i → tree.levelAt i ≤ tree.levelAt m := by
  obtain ⟨m, hm, hlevel⟩ := h
  have hspec := Nat.findGreatest_spec (P := fun m => m < i ∧ tree.levelAt m < tree.levelAt i)
    hm.le ⟨hm, hlevel⟩
  refine ⟨_, hspec.1, hspec.2, ?_⟩
  intro k hk hki
  by_contra hlt
  exact Nat.findGreatest_is_greatest hk hki.le ⟨hki, Nat.lt_of_not_le hlt⟩

theorem lt_length_of_parent? (h : tree.parent? i = some p) : i < tree.lines.length := by
  by_contra hi
  have hlength : tree.parents.length = tree.lines.length := length_parentsFrom 0 [] tree.lines
  rw [parent?, List.getElem?_eq_none (by omega)] at h
  exact absurd h (by simp)

/-- The parent of a line is the nearest line before it that is shallower. -/
theorem parent?_eq_some_iff : tree.parent? i = some p ↔
    i < tree.lines.length ∧ p < i ∧ tree.levelAt p < tree.levelAt i ∧
      ∀ m, p < m → m < i → tree.levelAt i ≤ tree.levelAt m := by
  constructor
  · intro h
    have hi := lt_length_of_parent? h
    by_cases hex : ∃ m < i, tree.levelAt m < tree.levelAt i
    · obtain ⟨q, hq, hlevel, hbetween⟩ := exists_nearest hex
      obtain rfl : q = p :=
        Option.some.inj ((parent?_of_nearest hi hq hlevel hbetween).symm.trans h)
      exact ⟨hi, hq, hlevel, hbetween⟩
    · push Not at hex
      rw [parent?_of_shallowest hi hex] at h
      exact absurd h (by simp)
  · rintro ⟨hi, hp, hlevel, hbetween⟩
    exact parent?_of_nearest hi hp hlevel hbetween

/-- A line has no parent exactly if no line before it is shallower. -/
theorem parent?_eq_none_iff (hi : i < tree.lines.length) :
    tree.parent? i = none ↔ ∀ m < i, tree.levelAt i ≤ tree.levelAt m := by
  constructor
  · intro h
    by_contra hex
    push Not at hex
    obtain ⟨p, hp, hlevel, hbetween⟩ := exists_nearest hex
    rw [parent?_of_nearest hi hp hlevel hbetween] at h
    exact absurd h (by simp)
  · exact parent?_of_shallowest hi

theorem lt_of_parent? (h : tree.parent? i = some p) : p < i :=
  (parent?_eq_some_iff.1 h).2.1

/-! ## Ancestors -/

/-- A line is the parent of another, or the parent of its parent, and so on. -/
def IsAncestor (tree : LineTree) : Nat → Nat → Prop :=
  Relation.TransGen fun p i => tree.parent? i = some p

/-- A line is another one or one of its ancestors. -/
def Encloses (tree : LineTree) : Nat → Nat → Prop :=
  Relation.ReflTransGen fun p i => tree.parent? i = some p

theorem isAncestor_iff : tree.IsAncestor a i ↔ ∃ p, tree.parent? i = some p ∧ tree.Encloses a p := by
  rw [IsAncestor, Relation.TransGen.tail'_iff]
  exact exists_congr fun _ => and_comm

theorem Encloses.of_parent? (h : tree.Encloses a p) (hp : tree.parent? i = some p) :
    tree.Encloses a i :=
  Relation.ReflTransGen.tail h hp

/-- Everything after a line up to another that it encloses is deeper than the first. -/
theorem Encloses.deeper (h : tree.Encloses a i) :
    a ≤ i ∧ ∀ m, a < m → m ≤ i → tree.levelAt a < tree.levelAt m := by
  induction h with
  | refl => exact ⟨le_rfl, fun m hlow hhigh => by omega⟩
  | @tail p i _ hparent ih =>
    obtain ⟨hap, hdeeper⟩ := ih
    obtain ⟨-, hpi, hlevel, hbetween⟩ := parent?_eq_some_iff.1 hparent
    have hle : tree.levelAt a ≤ tree.levelAt p := by
      rcases hap.eq_or_lt with rfl | hlt
      · exact le_rfl
      · exact (hdeeper p hlt le_rfl).le
    refine ⟨hap.trans hpi.le, ?_⟩
    intro m hlow hhigh
    rcases Nat.lt_trichotomy m p with hm | rfl | hm
    · exact hdeeper m hlow hm.le
    · exact hdeeper m hlow le_rfl
    · rcases hhigh.eq_or_lt with rfl | hlt
      · exact hle.trans_lt hlevel
      · exact (hle.trans_lt hlevel).trans_le (hbetween m hm hlt)

/-- A line encloses another exactly if everything after the first up to the second is deeper than
the first. -/
theorem encloses_iff (hi : i < tree.lines.length) : tree.Encloses a i ↔
    a ≤ i ∧ ∀ m, a < m → m ≤ i → tree.levelAt a < tree.levelAt m := by
  constructor
  · exact Encloses.deeper
  · intro h
    induction i using Nat.strongRecOn with
    | ind i ih =>
      obtain ⟨hai, hdeeper⟩ := h
      rcases hai.eq_or_lt with rfl | hlt
      · exact Relation.ReflTransGen.refl
      -- The parent stands between the two lines, because the first is shallower than the second.
      · obtain ⟨p, hp, hlevel, hbetween⟩ := exists_nearest ⟨a, hlt, hdeeper i hlt le_rfl⟩
        have hap : a ≤ p := by
          by_contra hpa
          exact absurd (hbetween a (by omega) hlt) (Nat.not_le.2 (hdeeper i hlt le_rfl))
        have hdeeper' : ∀ m, a < m → m ≤ p → tree.levelAt a < tree.levelAt m :=
          fun m hlow hhigh => hdeeper m hlow (hhigh.trans hp.le)
        exact (ih p hp (hp.trans hi) ⟨hap, hdeeper'⟩).of_parent?
          (parent?_of_nearest hi hp hlevel hbetween)

theorem IsAncestor.encloses (h : tree.IsAncestor a i) : tree.Encloses a i :=
  h.to_reflTransGen

theorem IsAncestor.lt (h : tree.IsAncestor a i) : a < i := by
  obtain ⟨p, hparent, hencloses⟩ := isAncestor_iff.1 h
  exact hencloses.deeper.1.trans_lt (lt_of_parent? hparent)

theorem IsAncestor.levelAt_lt (h : tree.IsAncestor a i) : tree.levelAt a < tree.levelAt i :=
  h.encloses.deeper.2 i h.lt le_rfl

/-- Above every line stands one without a parent. -/
theorem exists_encloses_root (tree : LineTree) (i : Nat) :
    ∃ r, tree.Encloses r i ∧ tree.parent? r = none := by
  induction i using Nat.strongRecOn with
  | ind i ih =>
    cases hparent : tree.parent? i with
    | none => exact ⟨i, Relation.ReflTransGen.refl, hparent⟩
    | some p =>
      obtain ⟨r, hr, hroot⟩ := ih p (lt_of_parent? hparent)
      exact ⟨r, hr.of_parent? hparent, hroot⟩

end SlimTemplate.LineTree
