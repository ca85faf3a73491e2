import SlimTemplate.Proofs.Line.Head
import SlimTemplate.Selector.Basic

/-!
# Selecting by a class

A dot with a class behind it selects the lines whose head has that class, whatever characters the
class is made of. Heads are read with letters, digits, hyphens and underscores alone, so a class
with any other character selects no line of any tree.

## Main statements

* `Selector.parse_class`: a dot and a class as a selector.
* `Selector.selects_class_iff`: which lines it selects.
* `Selector.selects_class_eq_false`: with another character in the class there are none.
-/

namespace SlimTemplate

/-- A class as a selector can have it: without a sign of another part. -/
structure Compound.IsClass (name : Text) : Prop where
  ne_nil : name ≠ []
  isBlank_eq_false : ∀ c ∈ name, Text.isBlank c = false
  signs : '#' ∉ name ∧ '.' ∉ name ∧ '>' ∉ name

namespace Compound

variable {name : Text}

theorem marksOf_class (h : ∀ c ∈ name, isNameChar c = true) :
    marksOf ('.' :: name) = [⟨'.', name⟩] := by
  rw [marksOf, List.takeWhile_eq_self_iff.2 h, List.dropWhile_eq_nil_iff.2 h, marksOf]

/-- A class is selected by, whether it has the usual form or not. -/
theorem parse_class (h : IsClass name) : parse ('.' :: name) = ⟨none, none, [name]⟩ := by
  have hdot : isLatinLetter '.' = false := by decide
  have htake : ('.' :: name).takeWhile (fun _ => false) = [] := rfl
  have hdrop : ('.' :: name).dropWhile (fun _ => false) = '.' :: name := rfl
  -- In the usual form the class is the only part; else all behind the dot is one.
  have hregular : regular? ('.' :: name) = none ∨
      regular? ('.' :: name) = some ([], [⟨'.', name⟩]) := by
    simp only [regular?, List.head?_cons, Option.map_some, Option.getD_some, hdot, Bool.false_and,
      htake, hdrop]
    split
    · next hall =>
      right
      have hchars : ∀ c ∈ name, isNameChar c = true := by
        intro c hc
        have hsign :=
          List.all_eq_true.1 (Bool.and_eq_true_iff.1 hall).2 c (List.mem_cons_of_mem _ hc)
        rw [Bool.or_eq_true, Bool.or_eq_true, beq_iff_eq, beq_iff_eq] at hsign
        rcases hsign with (hsign | rfl) | rfl
        · exact hsign
        · exact absurd hc h.signs.1
        · exact absurd hc h.signs.2.1
      rw [marksOf_class hchars, List.filter_cons_of_pos (by simpa using h.ne_nil)]
      rfl
    · exact Or.inl rfl
  rcases hregular with hnone | hsome
  · rw [parse, hnone]
  · rw [parse, hsome]
    rfl

end Compound

namespace Selector

variable {name : Text} {tree : LineTree} {i : Nat}

/-- A dot and a class are a selector. -/
theorem parse_class (h : Compound.IsClass name) :
    parse ('.' :: name) = .ok (.simple ⟨none, none, [name]⟩) := by
  have htrim : Text.trim ('.' :: name) = '.' :: name := by
    refine Text.trim_eq_self (fun c hc => ?_) fun c hc => ?_
    · obtain rfl := Option.some.inj hc
      decide
    · refine h.isBlank_eq_false c ?_
      rw [List.getLast?_cons, List.getLast?_eq_some_getLast h.ne_nil] at hc
      obtain rfl := Option.some.inj hc
      exact List.getLast_mem h.ne_nil
  have hcut : Text.cutAt? ['>'] ('.' :: name) = none := by
    refine Text.cutAt?_eq_none ?_
    intro hmem
    rcases List.mem_cons.1 (hmem.subset List.mem_cons_self) with hdot | hmem
    · exact absurd hdot (by decide)
    · exact h.signs.2.2 hmem
  rw [parse, htrim, hcut, Compound.parse_class h]
  rfl

/-- The lines are selected whose head has the class. -/
theorem selects_class_iff :
    (simple ⟨none, none, [name]⟩).selects tree i = true ↔
      ∃ line head, tree.lines[i]? = some line ∧ line.kind.isElement = true ∧
        Head.scan? line.content = some head ∧ name ∈ head.classes := by
  rw [selects]
  cases tree.lines[i]? with
  | none => simp
  | some line =>
    simp only [Compound.selects]
    cases hscan : Head.scan? line.content with
    | none => simp [hscan]
    | some head => simp [hscan, Compound.matchesHead, Head.hasClass]

/-- A class with a character that heads are not read with selects nothing. -/
theorem selects_class_eq_false (h : Compound.IsClass name)
    (hname : ∃ c ∈ name, Head.isNameChar c = false) (tree : LineTree) (i : Nat) :
    (simple ⟨none, none, [name]⟩).selects tree i = false := by
  rw [← Bool.not_eq_true, selects_class_iff]
  rintro ⟨line, head, -, -, hscan, hclass⟩
  obtain ⟨c, hc, hnot⟩ := hname
  obtain ⟨mark, hmark, rfl⟩ := List.mem_map.1 hclass
  obtain ⟨text, htext⟩ := Head.exists_scanAfterName hscan
  rw [htext, Head.scanAfterName_eq] at hmark
  have hmem : c ∈ (Head.readMarks text).1.flatMap Mark.text :=
    List.mem_flatMap.2 ⟨mark, (List.mem_filter.1 hmark).1, List.mem_cons_of_mem _ hc⟩
  rcases Head.mem_readMarks c hmem with rfl | rfl | hread
  · exact h.signs.1 hc
  · exact h.signs.2.1 hc
  · exact Bool.false_ne_true (hnot.symm.trans hread)

end Selector

end SlimTemplate
