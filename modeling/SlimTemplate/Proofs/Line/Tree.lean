import SlimTemplate.Line.Tree

/-!
# Parents and ends of blocks

The stack of open lines finds the nearest line before another whose level is smaller: lines in
between are at least as deep and leave the stack again.

## Main definitions

* `LineTree.openedAfter`: the open lines after lines have been read.

## Main statements

* `LineTree.parent?_eq_some`: the parent of a line is the nearest shallower one before it.
* `LineTree.parent?_eq_none`: a line without a shallower one before it has no parent.
* `LineTree.blockEnd_eq`: a block ends before the first line that is no deeper than its root.
* `LineTree.parent?_of_raise`: levels that are all raised by one number keep the parents.

All three are read off the levels alone.
-/

namespace SlimTemplate

theorem exists_append_of_getElem? {α : Type} {l : List α} {i : Nat} {x : α} (h : l[i]? = some x) :
    ∃ a b, l = a ++ x :: b ∧ a.length = i := by
  obtain ⟨hi, rfl⟩ := List.getElem?_eq_some_iff.1 h
  refine ⟨l.take i, l.drop (i + 1), ?_, List.length_take_of_le (Nat.le_of_lt hi)⟩
  rw [List.getElem_cons_drop, List.take_append_drop]

namespace LineTree

/-- The lines that are open after `lines` have been read, the innermost first. -/
def openedAfter (index : Nat) (opened : List (Nat × Nat)) : List SlimLine → List (Nat × Nat)
  | [] => opened
  | line :: lines =>
    openedAfter (index + 1)
      ((index, line.level) :: opened.dropWhile fun (_, level) => line.level ≤ level) lines

theorem length_parentsFrom (index : Nat) (opened : List (Nat × Nat)) (lines : List SlimLine) :
    (parentsFrom index opened lines).length = lines.length := by
  induction lines generalizing index opened with
  | nil => rfl
  | cons line lines ih =>
    rw [parentsFrom, List.length_cons, List.length_cons, ih]

theorem parentsFrom_append (index : Nat) (opened : List (Nat × Nat)) (a b : List SlimLine) :
    parentsFrom index opened (a ++ b) =
      parentsFrom index opened a ++
        parentsFrom (index + a.length) (openedAfter index opened a) b := by
  induction a generalizing index opened with
  | nil => rfl
  | cons line a ih =>
    rw [List.cons_append, parentsFrom, ih, parentsFrom, openedAfter, List.length_cons,
      Nat.add_assoc, Nat.add_comm 1]
    rfl

theorem openedAfter_append (index : Nat) (opened : List (Nat × Nat)) (a b : List SlimLine) :
    openedAfter index opened (a ++ b) =
      openedAfter (index + a.length) (openedAfter index opened a) b := by
  induction a generalizing index opened with
  | nil => rfl
  | cons line a ih =>
    rw [List.cons_append, openedAfter, ih, openedAfter, List.length_cons, Nat.add_assoc,
      Nat.add_comm 1]

/-- Leaving the lines as deep as `low` leaves the deeper ones as well. -/
theorem dropWhile_dropWhile_level {low high : Nat} (h : low ≤ high) (opened : List (Nat × Nat)) :
    (opened.dropWhile fun (_, level) => high ≤ level).dropWhile
        (fun (_, level) => low ≤ level) =
      opened.dropWhile fun (_, level) => low ≤ level := by
  induction opened with
  | nil => rfl
  | cons entry opened ih =>
    by_cases hhigh : high ≤ entry.2
    · have hlow : low ≤ entry.2 := Nat.le_trans h hhigh
      simpa [hhigh, hlow] using ih
    · simp [hhigh]

/-- Lines that are as deep as `level` do not show once lines that deep have left the stack. -/
theorem dropWhile_openedAfter {level : Nat} {lines : List SlimLine}
    (h : ∀ line ∈ lines, level ≤ line.level) (index : Nat) (opened : List (Nat × Nat)) :
    (openedAfter index opened lines).dropWhile (fun (_, l) => level ≤ l) =
      opened.dropWhile fun (_, l) => level ≤ l := by
  induction lines generalizing index opened with
  | nil => rfl
  | cons line lines ih =>
    have hline : level ≤ line.level := h line List.mem_cons_self
    have hlines : ∀ l ∈ lines, level ≤ l.level := fun l hl => h l (List.mem_cons_of_mem _ hl)
    rw [openedAfter, ih hlines, List.dropWhile_cons, if_pos (by simpa using hline),
      dropWhile_dropWhile_level hline]

/-- Levels that are all raised by the same number have the same parents. -/
theorem parentsFrom_raise (base index : Nat) (opened : List (Nat × Nat))
    {lines raised : List SlimLine}
    (h : raised.map (·.level) = lines.map fun line => line.level + base) :
    parentsFrom index (opened.map fun (i, level) => (i, level + base)) raised =
      parentsFrom index opened lines := by
  induction lines generalizing raised index opened with
  | nil =>
    rw [List.map_nil, List.map_eq_nil_iff] at h
    rw [h]
    rfl
  | cons line lines ih =>
    obtain ⟨first, rest, rfl, hfirst, hrest⟩ := List.map_eq_cons_iff.1 h
    have hdrop : (opened.map fun (i, level) => (i, level + base)).dropWhile
          (fun (_, level) => first.level ≤ level) =
        (opened.dropWhile fun (_, level) => line.level ≤ level).map
          fun (i, level) => (i, level + base) := by
      rw [List.dropWhile_map, hfirst]
      congr 2
      funext entry
      simp
    simp only [parentsFrom, hdrop, List.head?_map, Option.map_map]
    refine congrArg (_ :: ·) ?_
    rw [← ih (index + 1) _ hrest, List.map_cons, hfirst]

/-- Trees whose levels differ by the same number everywhere have the same parents. -/
theorem parent?_of_raise {tree raised : LineTree} (base : Nat)
    (h : raised.lines.map (·.level) = tree.lines.map fun line => line.level + base) (i : Nat) :
    raised.parent? i = tree.parent? i := by
  rw [parent?, parent?, parents, parents, ← parentsFrom_raise base 0 [] h]
  rfl

/-- The parent of a line is the innermost open line that is shallower. -/
theorem parent?_append_cons (a c : List SlimLine) (x : SlimLine) :
    (LineTree.mk (a ++ x :: c)).parent? a.length =
      (((openedAfter 0 [] a).dropWhile fun (_, level) => x.level ≤ level).head?.map (·.1)) := by
  have hlen : (parentsFrom 0 [] a).length = a.length := length_parentsFrom 0 [] a
  rw [parent?, parents, parentsFrom_append, List.getElem?_append_right (by omega), hlen,
    Nat.sub_self, parentsFrom]
  rfl

/-- The parent of a line is the nearest line before it that is shallower. -/
theorem parent?_eq_some {tree : LineTree} {a b c : List Nat} {p x : Nat}
    (h : tree.lines.map (·.level) = a ++ p :: b ++ x :: c) (hp : p < x) (hb : ∀ l ∈ b, x ≤ l) :
    tree.parent? (a.length + 1 + b.length) = some a.length := by
  obtain ⟨front, back, hlines, hfront, hback⟩ := List.map_eq_append_iff.1 h
  obtain ⟨la, rest, rfl, rfl, hrest⟩ := List.map_eq_append_iff.1 hfront
  obtain ⟨lp, lb, rfl, rfl, rfl⟩ := List.map_eq_cons_iff.1 hrest
  obtain ⟨lx, lc, rfl, rfl, -⟩ := List.map_eq_cons_iff.1 hback
  have hlb : ∀ line ∈ lb, lx.level ≤ line.level := fun line hl => hb _ (List.mem_map.2 ⟨line, hl, rfl⟩)
  have hlen : (la.map (·.level)).length + 1 + (lb.map (·.level)).length =
      (la ++ lp :: lb).length := by
    rw [List.length_append, List.length_cons, List.length_map, List.length_map]
    omega
  have htree : tree = LineTree.mk (la ++ lp :: lb ++ lx :: lc) := by
    rw [← hlines]
  have hnot : ¬lx.level ≤ lp.level := by omega
  rw [hlen, htree, parent?_append_cons, openedAfter_append, openedAfter,
    dropWhile_openedAfter hlb, List.dropWhile_cons, if_neg (by simpa using hnot)]
  simp

/-- A line without a shallower line before it has no parent. -/
theorem parent?_eq_none {tree : LineTree} {a c : List Nat} {x : Nat}
    (h : tree.lines.map (·.level) = a ++ x :: c) (ha : ∀ l ∈ a, x ≤ l) :
    tree.parent? a.length = none := by
  obtain ⟨la, back, hlines, rfl, hback⟩ := List.map_eq_append_iff.1 h
  obtain ⟨lx, lc, rfl, rfl, -⟩ := List.map_eq_cons_iff.1 hback
  have hla : ∀ line ∈ la, lx.level ≤ line.level := fun line hl => ha _ (List.mem_map.2 ⟨line, hl, rfl⟩)
  have htree : tree = LineTree.mk (la ++ lx :: lc) := by
    rw [← hlines]
  rw [List.length_map, htree, parent?_append_cons, dropWhile_openedAfter hla]
  rfl

/-- A block ends before the first line that is not deeper than its root. -/
theorem blockEnd_eq {tree : LineTree} {a b c : List Nat} {x : Nat}
    (h : tree.lines.map (·.level) = a ++ x :: (b ++ c)) (hb : ∀ l ∈ b, x < l)
    (hc : ∀ l, c.head? = some l → l ≤ x) :
    tree.blockEnd a.length = a.length + 1 + b.length := by
  obtain ⟨la, back, hlines, rfl, hback⟩ := List.map_eq_append_iff.1 h
  obtain ⟨lx, rest, rfl, rfl, hrest⟩ := List.map_eq_cons_iff.1 hback
  obtain ⟨lb, lc, rfl, rfl, rfl⟩ := List.map_eq_append_iff.1 hrest
  have hpos : ∀ line ∈ lb, decide (lx.level < line.level) = true := by
    intro line hl
    simpa using hb _ (List.mem_map.2 ⟨line, hl, rfl⟩)
  have htake : lc.takeWhile (fun line => decide (lx.level < line.level)) = [] := by
    cases lc with
    | nil => rfl
    | cons line lc =>
      have hline := hc line.level rfl
      rw [List.takeWhile_cons, if_neg (by simpa using hline)]
  have hcount : descendantCount lx (lb ++ lc) = lb.length := by
    rw [descendantCount, List.takeWhile_append_of_pos hpos, htake, List.append_nil]
  rw [blockEnd, hlines, List.length_map, List.length_map, List.drop_left]
  simp only [hcount]

end LineTree

end SlimTemplate
