import SlimTemplate.Extraction.Basic
import SlimTemplate.Proofs.Line.Ancestor

/-!
# Chosen lines and their orphans

Chosen lines are given by the places where they stand in a tree. The clean-up goes through them
from the last to the first; what it leaves can be told from the places alone: a comment stays
exactly if a line that is no comment follows it before any shallower one.

## Main definitions

* `LineTree.linesAt`: the lines at places.
* `LineTree.IsChoice`: places that go up and have lines.
* `LineTree.HasSubject`: something among the chosen lines that a comment can be about.
* `LineTree.Survives`: a line that is no comment without a subject.

## Main statements

* `LineTree.IsChoice.exists_dropOrphans`: which lines the clean-up leaves.
* `LineTree.Survives.of_encloses`: what encloses a line that stays is no orphan.
-/

namespace SlimTemplate.LineTree

open Extraction

variable {tree : LineTree} {places : List Nat} {chosen : Nat → Prop} {i j k m level : Nat}

/-! ## Lines at places -/

/-- The lines at places, as far as there are lines. -/
def linesAt (tree : LineTree) (places : List Nat) : List SlimLine :=
  places.filterMap (tree.lines[·]?)

/-- Places that go up and have lines. -/
structure IsChoice (tree : LineTree) (places : List Nat) : Prop where
  increasing : places.Pairwise (· < ·)
  inside : ∀ i ∈ places, i < tree.lines.length

theorem isChoice_nil : tree.IsChoice [] :=
  ⟨List.Pairwise.nil, fun _ h => absurd h List.not_mem_nil⟩

theorem isChoice_cons : tree.IsChoice (i :: places) ↔
    i < tree.lines.length ∧ (∀ j ∈ places, i < j) ∧ tree.IsChoice places := by
  constructor
  · intro ⟨hincreasing, hinside⟩
    obtain ⟨hfirst, hrest⟩ := List.pairwise_cons.1 hincreasing
    exact ⟨hinside i List.mem_cons_self, hfirst, hrest,
      fun j hj => hinside j (List.mem_cons_of_mem _ hj)⟩
  · intro ⟨hi, hfirst, hrest⟩
    refine ⟨List.pairwise_cons.2 ⟨hfirst, hrest.increasing⟩, ?_⟩
    intro j hj
    rcases List.mem_cons.1 hj with rfl | hj
    · exact hi
    · exact hrest.inside j hj

theorem IsChoice.sublist {kept : List Nat} (h : tree.IsChoice places)
    (hkept : kept.Sublist places) : tree.IsChoice kept :=
  ⟨h.increasing.sublist hkept, fun i hi => h.inside i (hkept.subset hi)⟩

theorem IsChoice.nodup (h : tree.IsChoice places) : places.Nodup :=
  h.increasing.imp Nat.ne_of_lt

theorem isChoice_range (tree : LineTree) : tree.IsChoice (List.range tree.lines.length) :=
  ⟨List.pairwise_lt_range, fun _ => List.mem_range.1⟩

/-- Places stand in the order of the lines. -/
theorem IsChoice.lt_iff (h : tree.IsChoice places) (hi : places[j]? = some i)
    (hm : places[k]? = some m) : j < k ↔ i < m := by
  obtain ⟨hj, rfl⟩ := List.getElem?_eq_some_iff.1 hi
  obtain ⟨hk, rfl⟩ := List.getElem?_eq_some_iff.1 hm
  have hup := List.pairwise_iff_getElem.1 h.increasing
  rcases Nat.lt_trichotomy j k with hlt | rfl | hlt
  · exact iff_of_true hlt (hup j k hj hk hlt)
  · exact iff_of_false (Nat.lt_irrefl j) (Nat.lt_irrefl _)
  · exact iff_of_false (by omega) (Nat.not_lt.2 (hup k j hk hj hlt).le)

theorem linesAt_cons {line : SlimLine} (h : tree.lines[i]? = some line) (places : List Nat) :
    tree.linesAt (i :: places) = line :: tree.linesAt places := by
  rw [linesAt, List.filterMap_cons, h]
  rfl

theorem linesAt_append (tree : LineTree) (places more : List Nat) :
    tree.linesAt (places ++ more) = tree.linesAt places ++ tree.linesAt more :=
  List.filterMap_append

theorem mem_of_mem_linesAt {line : SlimLine} (h : line ∈ tree.linesAt places) :
    line ∈ tree.lines := by
  obtain ⟨i, -, hi⟩ := List.mem_filterMap.1 h
  exact List.mem_of_getElem? hi

theorem getElem?_linesAt (h : tree.IsChoice places) (k : Nat) :
    (tree.linesAt places)[k]? = places[k]?.bind (tree.lines[·]?) := by
  induction places generalizing k with
  | nil => rfl
  | cons i places ih =>
    obtain ⟨hi, -, hrest⟩ := isChoice_cons.1 h
    rw [linesAt_cons (List.getElem?_eq_getElem hi)]
    cases k with
    | zero =>
      rw [List.getElem?_cons_zero, List.getElem?_cons_zero, Option.bind_some,
        List.getElem?_eq_getElem hi]
    | succ k =>
      rw [List.getElem?_cons_succ, List.getElem?_cons_succ]
      exact ih hrest k

theorem length_linesAt (h : tree.IsChoice places) :
    (tree.linesAt places).length = places.length := by
  induction places with
  | nil => rfl
  | cons i places ih =>
    obtain ⟨hi, -, hrest⟩ := isChoice_cons.1 h
    rw [linesAt_cons (List.getElem?_eq_getElem hi), List.length_cons, List.length_cons, ih hrest]

theorem getElem?_linesAt_eq_some (h : tree.IsChoice places) (hk : places[k]? = some i) :
    ∃ line, (tree.linesAt places)[k]? = some line ∧ tree.lines[i]? = some line := by
  have hline := List.getElem?_eq_getElem (h.inside i (List.mem_of_getElem? hk))
  refine ⟨_, ?_, hline⟩
  rw [getElem?_linesAt h, hk, Option.bind_some, hline]

theorem levelAt_linesAt (h : tree.IsChoice places) (hk : places[k]? = some i) :
    (LineTree.mk (tree.linesAt places)).levelAt k = tree.levelAt i := by
  obtain ⟨line, hchosen, hline⟩ := getElem?_linesAt_eq_some h hk
  have hmade : (LineTree.mk (tree.linesAt places)).lines[k]? = some line := hchosen
  rw [levelAt_of_getElem? hmade, levelAt_of_getElem? hline]

/-- The levels of lines at places are the levels at the places. -/
theorem forall_level_linesAt_iff {p : Nat → Prop} (h : tree.IsChoice places) :
    (∀ line ∈ tree.linesAt places, p line.level) ↔ ∀ i ∈ places, p (tree.levelAt i) := by
  constructor
  · intro hlines i hi
    have hline := List.getElem?_eq_getElem (h.inside i hi)
    rw [levelAt_of_getElem? hline]
    exact hlines _ (List.mem_filterMap.2 ⟨i, hi, hline⟩)
  · intro hplaces line hline
    obtain ⟨i, hi, hline⟩ := List.mem_filterMap.1 hline
    rw [← levelAt_of_getElem? hline]
    exact hplaces i hi

/-- All places together have all lines. -/
theorem linesAt_range (tree : LineTree) :
    tree.linesAt (List.range tree.lines.length) = tree.lines := by
  refine List.ext_getElem? fun i => ?_
  rw [getElem?_linesAt (isChoice_range tree)]
  by_cases hi : i < tree.lines.length
  · rw [List.getElem?_range hi, Option.bind_some]
  · rw [List.getElem?_eq_none (by simpa using hi), List.getElem?_eq_none (by simpa using hi)]
    rfl

/-! ## Comments without a subject -/

/-- The line at a place is a comment. -/
def IsCommentAt (tree : LineTree) (i : Nat) : Prop :=
  ∃ line, tree.lines[i]? = some line ∧ line.kind.isComment = true

/-- Among the chosen lines behind a place one is no comment, and none up to it is shallower than
`level`. -/
def HasSubject (tree : LineTree) (chosen : Nat → Prop) (level i : Nat) : Prop :=
  ∃ j, i < j ∧ chosen j ∧ ¬tree.IsCommentAt j ∧
    ∀ m, i < m → m ≤ j → chosen m → level ≤ tree.levelAt m

/-- A line is no comment, or a comment with a subject among the chosen lines. -/
def Survives (tree : LineTree) (chosen : Nat → Prop) (i : Nat) : Prop :=
  tree.IsCommentAt i → tree.HasSubject chosen (tree.levelAt i) i

theorem isCommentAt_iff {line : SlimLine} (h : tree.lines[i]? = some line) :
    tree.IsCommentAt i ↔ line.kind.isComment = true := by
  constructor
  · rintro ⟨other, hother, hcomment⟩
    rw [h] at hother
    cases hother
    exact hcomment
  · exact fun hcomment => ⟨line, h, hcomment⟩

theorem hasSubject_congr {chosen' : Nat → Prop} (h : ∀ m, i < m → (chosen m ↔ chosen' m)) :
    tree.HasSubject chosen level i ↔ tree.HasSubject chosen' level i := by
  apply exists_congr
  intro j
  apply and_congr_right
  intro hj
  rw [h j hj]
  apply and_congr_right
  intro _
  apply and_congr_right
  intro _
  constructor
  · exact fun hlow m hm hmj hmem => hlow m hm hmj ((h m hm).2 hmem)
  · exact fun hlow m hm hmj hmem => hlow m hm hmj ((h m hm).1 hmem)

/-- What follows a place is its first chosen line and what follows that. -/
theorem hasSubject_cons (hij : i < j) (hj : ∀ m ∈ places, j < m) :
    tree.HasSubject (· ∈ j :: places) level i ↔
      level ≤ tree.levelAt j ∧
        (tree.IsCommentAt j → tree.HasSubject (· ∈ places) level j) := by
  constructor
  · rintro ⟨s, his, hs, hsubject, hlow⟩
    have hjs : j ≤ s := by
      rcases List.mem_cons.1 hs with rfl | hs
      · exact le_rfl
      · exact (hj s hs).le
    refine ⟨hlow j hij hjs List.mem_cons_self, ?_⟩
    intro hcomment
    rcases List.mem_cons.1 hs with rfl | hs
    · exact absurd hcomment hsubject
    · exact ⟨s, hj s hs, hs, hsubject,
        fun m hjm hms hm => hlow m (hij.trans hjm) hms (List.mem_cons_of_mem _ hm)⟩
  · rintro ⟨hlevel, hrest⟩
    by_cases hcomment : tree.IsCommentAt j
    · obtain ⟨s, hjs, hs, hsubject, hlow⟩ := hrest hcomment
      refine ⟨s, hij.trans hjs, List.mem_cons_of_mem _ hs, hsubject, ?_⟩
      intro m _ hms hm
      rcases List.mem_cons.1 hm with rfl | hm
      · exact hlevel
      · exact hlow m (hj m hm) hms hm
    · refine ⟨j, hij, List.mem_cons_self, hcomment, ?_⟩
      intro m _ hmj hm
      rcases List.mem_cons.1 hm with rfl | hm
      · exact hlevel
      · have := hj m hm
        omega

theorem dropOrphans_cons_of_stays {line : SlimLine} {lines : List SlimLine}
    (h : line.kind.isComment = true →
      ∃ next ∈ (dropOrphans lines).head?, line.level ≤ next.level) :
    dropOrphans (line :: lines) = line :: dropOrphans lines := by
  rw [dropOrphans]
  split
  · next hnil =>
    rw [hnil] at h ⊢
    by_cases hcomment : line.kind.isComment
    · obtain ⟨_, hnext, _⟩ := h hcomment
      cases hnext
    · rw [if_neg hcomment]
  · next next rest hcons =>
    rw [hcons] at h ⊢
    refine if_neg ?_
    intro horphan
    rw [Bool.and_eq_true, decide_eq_true_eq] at horphan
    obtain ⟨_, ⟨⟩, hdeep⟩ := h horphan.1
    exact absurd horphan.2 (Nat.not_lt.2 hdeep)

theorem dropOrphans_cons_of_orphan {line : SlimLine} {lines : List SlimLine}
    (hcomment : line.kind.isComment = true)
    (h : ¬∃ next ∈ (dropOrphans lines).head?, line.level ≤ next.level) :
    dropOrphans (line :: lines) = dropOrphans lines := by
  rw [dropOrphans]
  split
  · next hnil => rw [hnil, if_pos hcomment]
  · next next rest hcons =>
    rw [hcons] at h ⊢
    refine if_pos ?_
    rw [hcomment, Bool.true_and, decide_eq_true_eq]
    by_contra hlevel
    exact h ⟨next, rfl, Nat.not_lt.1 hlevel⟩

/-- A line has a subject behind it exactly if the first line that the clean-up leaves there is
deep enough. -/
theorem hasSubject_iff_dropOrphans (h : tree.IsChoice places) (hi : ∀ j ∈ places, i < j) :
    tree.HasSubject (· ∈ places) level i ↔
      ∃ next ∈ (dropOrphans (tree.linesAt places)).head?, level ≤ next.level := by
  induction places generalizing i with
  | nil =>
    constructor
    · rintro ⟨_, _, hmem, _⟩
      cases hmem
    · rintro ⟨_, hmem, _⟩
      cases hmem
  | cons j places ih =>
    obtain ⟨hj, hfirst, hrest⟩ := isChoice_cons.1 h
    have hline := List.getElem?_eq_getElem hj
    rw [hasSubject_cons (hi j List.mem_cons_self) hfirst, linesAt_cons hline, dropOrphans,
      isCommentAt_iff hline, levelAt_of_getElem? hline, ih hrest hfirst]
    generalize tree.lines[j] = line
    cases dropOrphans (tree.linesAt places) with
    | nil => by_cases hcomment : line.kind.isComment <;> simp [hcomment]
    | cons next rest =>
      by_cases hcomment : line.kind.isComment
      · by_cases hlevel : next.level < line.level
        · simp [hcomment, hlevel]
          omega
        · simp [hcomment, hlevel]
          omega
      · simp [hcomment]

/-- The clean-up leaves the lines that survive. -/
theorem IsChoice.exists_dropOrphans (h : tree.IsChoice places) :
    ∃ kept, tree.IsChoice kept ∧ tree.linesAt kept = dropOrphans (tree.linesAt places) ∧
      ∀ i, i ∈ kept ↔ i ∈ places ∧ tree.Survives (· ∈ places) i := by
  induction places with
  | nil => exact ⟨[], isChoice_nil, rfl, fun i => by simp⟩
  | cons j places ih =>
    obtain ⟨hj, hfirst, hrest⟩ := isChoice_cons.1 h
    obtain ⟨kept, hkept, hlines, hmem⟩ := ih hrest
    have hline := List.getElem?_eq_getElem hj
    -- Whether a line survives does not depend on the lines before it.
    have hafter : ∀ i, j ≤ i →
        (tree.Survives (· ∈ j :: places) i ↔ tree.Survives (· ∈ places) i) := by
      intro i hi
      apply imp_congr_right
      intro _
      apply hasSubject_congr
      intro m hm
      rw [List.mem_cons, or_iff_right (by omega)]
    have hold : ∀ i, i ∈ kept ↔ i ∈ places ∧ tree.Survives (· ∈ j :: places) i := by
      intro i
      rw [hmem]
      exact and_congr_right fun hi => (hafter i (hfirst i hi).le).symm
    have hsubject : tree.HasSubject (· ∈ places) (tree.levelAt j) j ↔ _ :=
      hasSubject_iff_dropOrphans hrest hfirst
    rw [linesAt_cons hline]
    by_cases hstays : tree.Survives (· ∈ j :: places) j
    · refine ⟨j :: kept,
        isChoice_cons.2 ⟨hj, fun i hi => hfirst i ((hmem i).1 hi).1, hkept⟩, ?_, ?_⟩
      · rw [linesAt_cons hline, hlines, dropOrphans_cons_of_stays]
        intro hcomment
        rw [← levelAt_of_getElem? hline]
        exact hsubject.1 ((hafter j le_rfl).1 hstays ((isCommentAt_iff hline).2 hcomment))
      · intro i
        rw [List.mem_cons, List.mem_cons, hold, or_and_right]
        refine or_congr_left ⟨?_, And.left⟩
        rintro rfl
        exact ⟨rfl, hstays⟩
    · obtain ⟨hcomment, horphan⟩ := Classical.not_imp.1 (mt (hafter j le_rfl).2 hstays)
      refine ⟨kept, hkept, ?_, ?_⟩
      · rw [hlines, dropOrphans_cons_of_orphan ((isCommentAt_iff hline).1 hcomment)]
        rwa [← levelAt_of_getElem? hline, ← hsubject]
      · intro i
        rw [hold, List.mem_cons, or_and_right, or_iff_right]
        rintro ⟨rfl, hsurvives⟩
        exact hstays hsurvives

/-- What encloses a chosen line that survives is no orphan. -/
theorem Survives.of_encloses {p : Nat} (hencloses : tree.Encloses p i) (hpi : p < i)
    (hi : chosen i) (hsurvives : tree.Survives chosen i) : tree.Survives chosen p := by
  intro _
  obtain ⟨-, hdeeper⟩ := hencloses.deeper
  by_cases hcomment : tree.IsCommentAt i
  · obtain ⟨j, hij, hj, hsubject, hlow⟩ := hsurvives hcomment
    refine ⟨j, hpi.trans hij, hj, hsubject, ?_⟩
    intro m hpm hmj hm
    rcases Nat.lt_or_ge i m with him | hmi
    · exact (hdeeper i hpi le_rfl).le.trans (hlow m him hmj hm)
    · exact (hdeeper m hpm hmi).le
  · exact ⟨i, hpi, hi, hcomment, fun m hpm hmi _ => (hdeeper m hpm hmi).le⟩

end SlimTemplate.LineTree
