import SlimTemplate.Proofs.Line.Ancestor
import SlimTemplate.Proofs.Selector.Normal

/-!
# What selectors mean

An author spells a compound selector as a tag name and as identifiers and classes behind it, in any
order and each as often as they like. It is read as that tag name, the first identifier and all
classes, and it selects the element lines whose heads have them. Of two sides with `>` between them
the second selects a line and the first the nearest line before it that is shallower.

## Main definitions

* `Compound.Spelling`: a compound selector as its author spells it.
* `Compound.Spelling.IsAt`: a line that has what a spelling asks for.

## Main statements

* `Selector.parse_spelling`: what a spelling is read as and which lines it selects.
-/

namespace SlimTemplate

namespace Compound

/-- A compound selector as its author spells it: a tag name, identifiers and classes, of which
there is at least one. -/
structure Spelling where
  element : Option Text
  /-- The identifiers and classes in order. -/
  marks : List Mark
  element_or_mark : element ≠ none ∨ marks ≠ []
  element_eq_cons : ∀ name ∈ element, ∃ c rest, name = c :: rest ∧ c.isAlpha = true ∧
    ∀ d ∈ rest, d.isAlphanum = true
  isName : ∀ mark ∈ marks, mark.IsName

namespace Spelling

variable {s : Spelling} {tree : LineTree} {i : Nat}

/-- The spelling as a text. -/
def text (s : Spelling) : Text :=
  s.element.getD [] ++ s.marks.flatMap Mark.text

/-- The names behind a sign, in order. -/
def namesBehind (s : Spelling) (sign : Char) : List Text :=
  s.marks.filterMap fun mark => if mark.sign = sign then some mark.name else none

/-- The compound selector that is meant: the tag name, the first identifier and all classes. -/
def compound (s : Spelling) : Compound :=
  ⟨s.element, (s.namesBehind '#').head?, s.namesBehind '.'⟩

/-- A head has the tag name up to case, the first identifier and all classes. -/
def Describes (s : Spelling) (head : Head) : Prop :=
  (∀ name ∈ s.element, Text.toAsciiLower head.tagName = Text.toAsciiLower name) ∧
    (∀ id ∈ (s.namesBehind '#').head?, head.id? = some id) ∧
    ∀ name ∈ s.namesBehind '.', name ∈ head.classes

/-- The line at a place opens an element whose head has what a spelling asks for. -/
def IsAt (s : Spelling) (tree : LineTree) (i : Nat) : Prop :=
  ∃ line head, tree.lines[i]? = some line ∧ (line.kind = .element ∨ line.kind = .shorthand) ∧
    Head.scan? line.content = some head ∧ s.Describes head

theorem isTag (s : Spelling) : IsTag (s.element.getD []) := by
  cases helement : s.element with
  | none => exact ⟨by simp, by simp⟩
  | some name =>
    obtain ⟨c, rest, rfl, hc, hrest⟩ := s.element_eq_cons name helement
    have hfirst : c.isAlphanum = true := by
      rw [Char.isAlphanum, hc]
      rfl
    refine ⟨fun d hd => ?_, List.forall_mem_cons.2 ⟨isElementChar_of_isAlphanum hfirst, fun d hd => ?_⟩⟩
    · obtain rfl : c = d := Option.some.inj hd
      rw [isLatinLetter, hc]
      rfl
    · exact isElementChar_of_isAlphanum (hrest d hd)

theorem isPart_of_mem_marks (s : Spelling) : ∀ mark ∈ s.marks, mark.IsPart := by
  intro mark hmark
  have hname := s.isName mark hmark
  exact ⟨hname.sign, hname.name_ne_nil, fun c hc => isNameChar_of_isNameChar (hname.name c hc)⟩

theorem map_find?_eq_head? (s : Spelling) (sign : Char) :
    (s.marks.find? (·.sign = sign)).map (·.name) = (s.namesBehind sign).head? := by
  rw [namesBehind]
  induction s.marks with
  | nil => rfl
  | cons mark marks ih =>
    by_cases hsign : mark.sign = sign
    · simp [hsign]
    · simp [hsign, ih]

theorem map_filter_eq (s : Spelling) (sign : Char) :
    (s.marks.filter (·.sign = sign)).map (·.name) = s.namesBehind sign := by
  rw [namesBehind]
  induction s.marks with
  | nil => rfl
  | cons mark marks ih =>
    by_cases hsign : mark.sign = sign
    · simp [hsign, ih]
    · simp [hsign, ih]

/-- A spelling is read as what is meant. -/
theorem parse_text (s : Spelling) : Compound.parse s.text = s.compound := by
  have helement : (if (s.element.getD []).isEmpty then none else some (s.element.getD [])) =
      s.element := by
    cases hname : s.element with
    | none => rfl
    | some name =>
      obtain ⟨c, rest, rfl, -⟩ := s.element_eq_cons name hname
      rfl
  rw [text, parse_append s.isTag s.isPart_of_mem_marks, ofParts, helement, map_find?_eq_head?,
    map_filter_eq]
  rfl

theorem text_ne_nil (s : Spelling) : s.text ≠ [] := by
  intro hnil
  obtain ⟨helement, hmarks⟩ := List.append_eq_nil_iff.1 hnil
  rcases s.element_or_mark with hne | hne
  · obtain ⟨name, hname⟩ := Option.ne_none_iff_exists'.1 hne
    obtain ⟨c, rest, rfl, -⟩ := s.element_eq_cons name hname
    rw [hname] at helement
    cases helement
  · obtain ⟨mark, marks, hcons⟩ := List.exists_cons_of_ne_nil hne
    rw [hcons] at hmarks
    cases hmarks

theorem isSide_text (s : Spelling) : Selector.IsSide s.text :=
  Selector.isSide_of_isPlainChar s.text_ne_nil
    (isPlainChar_of_mem_append s.isTag s.isPart_of_mem_marks)

/-- What is meant selects the lines that have it. -/
theorem exists_selects_iff (s : Spelling) (tree : LineTree) (i : Nat) :
    (∃ line, tree.lines[i]? = some line ∧ s.compound.selects line = true) ↔ s.IsAt tree i := by
  have hkind : ∀ kind : LineKind, kind.isElement = true ↔ kind = .element ∨ kind = .shorthand := by
    intro kind
    cases kind <;> decide
  simp only [selects_iff, matchesHead_iff, hkind]
  constructor
  · rintro ⟨line, hline, hkind, head, hscan, hdescribes⟩
    exact ⟨line, head, hline, hkind, hscan, hdescribes⟩
  · rintro ⟨line, head, hline, hkind, hscan, hdescribes⟩
    exact ⟨line, hline, hkind, head, hscan, hdescribes⟩

end Spelling

end Compound

namespace Selector

open Compound (Spelling)

theorem selects_simple_iff {compound : Compound} {tree : LineTree} {i : Nat} :
    (simple compound).selects tree i = true ↔
      ∃ line, tree.lines[i]? = some line ∧ compound.selects line = true := by
  rw [selects]
  cases tree.lines[i]? with
  | none => simp
  | some line => simp

theorem selects_below_iff {parent child : Compound} {tree : LineTree} {i : Nat} :
    (below parent child).selects tree i = true ↔
      (∃ line, tree.lines[i]? = some line ∧ child.selects line = true) ∧
      ∃ j, tree.parent? i = some j ∧
        ∃ line, tree.lines[j]? = some line ∧ parent.selects line = true := by
  rw [selects]
  cases hline : tree.lines[i]? with
  | none => simp
  | some line =>
    simp only [Bool.and_eq_true, Option.some.injEq, exists_eq_left']
    apply and_congr_right
    intro _
    rw [LineTree.enclosing?]
    cases tree.parent? i with
    | none => simp
    | some j =>
      simp only [Option.bind_some, Option.some.injEq, exists_eq_left']
      cases tree.lines[j]? with
      | none => simp
      | some enclosing => simp

variable {before behind : Text}

/-- A spelling with blanks around it is a selector for the tag name, the first identifier and all
classes that were spelled. It selects the lines of any tree that open an element with these. With
another spelling and a `>` before it, it selects those whose nearest shallower line before them
has what the other one asks for. -/
theorem parse_spelling (s : Spelling) (hbefore : ∀ c ∈ before, Text.isBlank c = true)
    (hbehind : ∀ c ∈ behind, Text.isBlank c = true) :
    parse (before ++ (s.text ++ behind)) = .ok (.simple s.compound) ∧
    (∀ tree i, (simple s.compound).selects tree i = true ↔ s.IsAt tree i) ∧
    ∀ (p : Spelling) (left right : Text), (∀ c ∈ left ++ right, Text.isBlank c = true) →
      parse (before ++ (p.text ++ left) ++ '>' :: (right ++ (s.text ++ behind))) =
        .ok (.below p.compound s.compound) ∧
      ∀ tree i, (below p.compound s.compound).selects tree i = true ↔
        s.IsAt tree i ∧ ∃ j < i, tree.levelAt j < tree.levelAt i ∧
          (∀ m, j < m → m < i → tree.levelAt i ≤ tree.levelAt m) ∧ p.IsAt tree j := by
  refine ⟨?_, fun tree i => selects_simple_iff.trans (s.exists_selects_iff tree i),
    fun p left right hblank => ⟨?_, fun tree i => ?_⟩⟩
  · rw [s.isSide_text.parse_eq hbefore hbehind, s.parse_text]
  · obtain ⟨hleft, hright⟩ := List.forall_mem_append.1 hblank
    rw [p.isSide_text.parse_below s.isSide_text hbefore hleft hright hbehind, p.parse_text,
      s.parse_text]
  · rw [selects_below_iff, s.exists_selects_iff]
    apply and_congr_right
    rintro ⟨line, -, hline, -⟩
    have hi : i < tree.lines.length := (List.getElem?_eq_some_iff.1 hline).1
    simp only [p.exists_selects_iff, LineTree.parent?_eq_some_iff, and_iff_right hi, and_assoc]

/-- A navigation bar. -/
def navigation : Spelling where
  element := some "nav".toList
  marks := []
  element_or_mark := Or.inl (by decide)
  element_eq_cons := by
    rintro _ ⟨⟩
    exact ⟨'n', "av".toList, rfl, by decide, Text.forall_of_all (by decide)⟩
  isName := by simp

/-- An entry with two identifiers and two classes. -/
def markedEntry : Spelling where
  element := some "LI".toList
  marks := [⟨'#', "one".toList⟩, ⟨'.', "a".toList⟩, ⟨'#', "two".toList⟩, ⟨'.', "b".toList⟩]
  element_or_mark := Or.inl (by decide)
  element_eq_cons := by
    rintro _ ⟨⟩
    exact ⟨'L', "I".toList, rfl, by decide, Text.forall_of_all (by decide)⟩
  isName := by
    intro mark hmark
    simp only [List.mem_cons, List.not_mem_nil, or_false] at hmark
    rcases hmark with rfl | rfl | rfl | rfl <;>
      exact ⟨by decide, by decide, Text.forall_of_all (by decide)⟩

/-- Three such entries, of which only the second stands directly in the navigation bar. -/
def pageWithEntries : LineTree :=
  .ofSource .standard
    "nav\n  ul\n    li#one.b.a A\n  li#one.a.b B\nli#one.a.b C\n".toList

theorem parse_spelling_markedEntry :
    parse "\tnav > LI#one.a#two.b\n".toList =
      .ok (.below ⟨some "nav".toList, none, []⟩
        ⟨some "LI".toList, some "one".toList, ["a".toList, "b".toList]⟩) ∧
    (∃ j < 3, pageWithEntries.levelAt j < pageWithEntries.levelAt 3 ∧
      (∀ m, j < m → m < 3 → pageWithEntries.levelAt 3 ≤ pageWithEntries.levelAt m) ∧
      navigation.IsAt pageWithEntries j) ∧
    markedEntry.IsAt pageWithEntries 2 ∧
    (below navigation.compound markedEntry.compound).selects pageWithEntries 2 = false := by
  obtain ⟨-, hselects, hbelow⟩ :=
    @parse_spelling ['\t'] ['\n'] markedEntry (Text.forall_of_all (by decide))
      (Text.forall_of_all (by decide))
  obtain ⟨hparse, hselectsBelow⟩ := hbelow navigation [' '] [' '] (Text.forall_of_all (by decide))
  exact ⟨hparse, ((hselectsBelow pageWithEntries 3).1 (by decide +kernel)).2,
    (hselects pageWithEntries 2).1 (by decide +kernel), by decide +kernel⟩

end Selector

end SlimTemplate
