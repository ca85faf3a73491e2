import SlimTemplate.Proofs.Line.Parts
import SlimTemplate.Proofs.Selector.Spelling

/-!
# Selecting a line by its own head

A head is read as a tag name, marks and more, so the compound selector that asks for all of these
matches it. But the tag names of heads have hyphens, underscores and colons as well, and with one of
these in it a tag name in a selector takes everything that is behind it for a part of the name. No
head has such a name.

## Main definitions

* `Head.ownCompound`: the compound selector that asks for what a head has.

## Main statements

* `Head.selects_ownCompound`: which heads can be selected by what they have.
* `Head.not_selects_ownCompound`: a custom element with a class cannot.
-/

namespace SlimTemplate

namespace Head

variable {content : Text} {head : Head}

/-- The compound selector that asks for the tag name, if one is written, the identifier and all
classes of a head. -/
def ownCompound (head : Head) : Compound :=
  ⟨head.element, head.id?, head.classes⟩

theorem isPart_of_mem_marks (h : scan? content = some head) :
    ∀ mark ∈ head.marks, mark.IsPart := by
  intro mark hmark
  have hname := isName_of_mem_marks h mark hmark
  exact ⟨hname.sign, hname.name_ne_nil,
    fun c hc => Compound.isNameChar_of_isNameChar (hname.name c hc)⟩

theorem isPart_of_mem_ownCompound (h : scan? content = some head) :
    ∀ mark ∈ head.ownCompound.writtenMarks, mark.IsPart :=
  Compound.isPart_of_mem_writtenMarks [] (isPart_of_mem_marks h)

theorem matchesHead_ownCompound (head : Head) : head.ownCompound.matchesHead head = true := by
  refine Compound.matchesHead_iff.2 ⟨fun name hname => ?_, fun id hid => hid, fun name hname => hname⟩
  rw [tagName, show head.element = some name from hname]
  rfl

/-! ## Plain tag names -/

/-- A tag name, if one is written, of letters and digits alone. -/
def IsPlain (head : Head) : Prop :=
  ∀ c ∈ head.element.getD [], c.isAlphanum = true

instance (head : Head) : Decidable head.IsPlain :=
  decidable_of_iff ((head.element.getD []).all Char.isAlphanum = true) List.all_eq_true

theorem isPlain_ownCompound (h : scan? content = some head) (hplain : head.IsPlain) :
    head.ownCompound.IsPlain where
  element_ne := by
    intro hnil
    obtain ⟨c, rest, hcons, -⟩ := element_eq_cons h [] hnil
    cases hcons
  isTag := by
    refine ⟨fun c hc => ?_, fun c hc => Compound.isElementChar_of_isAlphanum (hplain c hc)⟩
    cases helement : head.element with
    | none => simp [ownCompound, helement] at hc
    | some name =>
      obtain ⟨d, rest, rfl, hd, -⟩ := element_eq_cons h name helement
      have hhead : head.ownCompound.element = some (d :: rest) := helement
      rw [hhead] at hc
      obtain rfl : d = c := Option.some.inj hc
      rw [isLatinLetter, hd]
      rfl
  isPart := isPart_of_mem_ownCompound h

/-! ## Other tag names -/

/-- Only letters and digits are in the tag names of both heads and selectors. -/
theorem isElementChar_eq_false {c : Char} (htag : isTagChar c = true)
    (hc : ¬c.isAlphanum = true) : Compound.isElementChar c = false ∧ c ≠ '#' ∧ c ≠ '.' := by
  rw [isTagChar, Bool.or_eq_true, Bool.or_eq_true, Bool.or_eq_true, beq_iff_eq, beq_iff_eq,
    beq_iff_eq] at htag
  rcases htag with ((halphanum | rfl) | rfl) | rfl
  · exact absurd halphanum hc
  all_goals decide

/-- A tag name with another character takes all that is behind it for a part of the name. -/
theorem parse_append_of_not_isPlain {name : Text} (h : scan? content = some head)
    (hname : head.element = some name) (hplain : ¬head.IsPlain) (rest : Text) :
    Compound.parse (name ++ rest) = ⟨some (name ++ rest), none, []⟩ := by
  obtain ⟨first, more, hcons, hfirst, hmore⟩ := element_eq_cons h name hname
  have hchars : ∀ c ∈ name, isTagChar c = true := by
    have htag := isTagChar_of_mem_element h
    rwa [hname] at htag
  rw [IsPlain, hname] at hplain
  -- The letters and digits at the start are read as the name, and the next character ends it.
  have hregular : Compound.regular? (name ++ rest) = none := by
    cases hdrop : name.dropWhile Char.isAlphanum with
    | nil => exact absurd (List.dropWhile_eq_nil_iff.1 hdrop) hplain
    | cons c after =>
      obtain ⟨before, hsplit, hbefore, hc⟩ := Text.eq_append_of_dropWhile hdrop
      have htag : Compound.IsTag before := by
        refine ⟨fun d hd => ?_, fun d hd => Compound.isElementChar_of_isAlphanum (hbefore d hd)⟩
        have hhead : (before ++ c :: after).head? = some d := by
          rw [List.head?_append, Option.mem_def.1 hd]
          rfl
        rw [← hsplit, hcons] at hhead
        obtain rfl : first = d := Option.some.inj hhead
        rw [isLatinLetter, hfirst]
        rfl
      have hmem : c ∈ name := by
        rw [hsplit]
        exact List.mem_append_right before List.mem_cons_self
      obtain ⟨helement, hsign⟩ := isElementChar_eq_false (hchars c hmem) (by simp [hc])
      rw [hsplit, List.append_assoc]
      exact Compound.regular?_append_cons_eq_none htag helement hsign _
  refine Compound.parse_of_irregular hregular fun c hc => ?_
  rw [hcons] at hc
  obtain rfl : first = c := Option.some.inj hc
  constructor
  · rintro rfl
    exact absurd hfirst (by decide)
  · rintro rfl
    exact absurd hfirst (by decide)

/-- No head has a tag name with the sign of a mark in it. -/
theorem not_matchesHead_of_sign {name : Text} {c : Char} (hmem : c ∈ name)
    (hc : c = '#' ∨ c = '.') (h : scan? content = some head) :
    Compound.matchesHead ⟨some name, none, []⟩ head = false := by
  rw [← Bool.not_eq_true, Compound.matchesHead_iff]
  rintro ⟨helement, -⟩
  have hlower : c.toLower ∈ Text.toAsciiLower name := List.mem_map.2 ⟨c, hmem, rfl⟩
  rw [← helement name rfl] at hlower
  have htag := isTagChar_of_mem_toAsciiLower_tagName h _ hlower
  rcases hc with rfl | rfl
  · exact absurd htag (by decide)
  · exact absurd htag (by decide)

/-! ## The selector for a head -/

theorem isSide_ownCompound (h : scan? content = some head)
    (hne : head.element ≠ none ∨ head.id? ≠ none ∨ head.classes ≠ []) :
    Selector.IsSide head.ownCompound.text := by
  have hchars : ∀ c ∈ head.ownCompound.text, Text.isBlank c = false ∧ c ≠ '>' := by
    intro c hc
    rw [Compound.text_eq] at hc
    rcases List.mem_append.1 hc with hc | hc
    · have htag := isTagChar_of_mem_element h c hc
      refine ⟨isBlank_eq_false_of_mem_element h c hc, ?_⟩
      rintro rfl
      exact absurd htag (by decide)
    · have hempty : Compound.IsTag [] := ⟨by simp, by simp⟩
      exact Compound.isPlainChar_ne
        (Compound.isPlainChar_of_mem_append hempty (isPart_of_mem_ownCompound h) c hc)
  refine ⟨Text.trim_eq_self_of_forall fun c hc => (hchars c hc).1, fun hnil => ?_,
    fun hmem => (hchars '>' hmem).2 rfl⟩
  rw [Compound.text_eq, List.append_eq_nil_iff, Compound.flatMap_text_eq_nil_iff,
    Compound.writtenMarks_eq_nil_iff] at hnil
  obtain ⟨helement, hid, hclasses⟩ := hnil
  rcases hne with hne | hne | hne
  · obtain ⟨name, hname⟩ := Option.ne_none_iff_exists'.1 hne
    obtain ⟨c, rest, rfl, -⟩ := element_eq_cons h name hname
    rw [show head.ownCompound.element = some (c :: rest) from hname] at helement
    cases helement
  · exact hne hid
  · exact hne hclasses

/-- A head can be selected by what it has if its tag name is plain. -/
theorem parse_ownCompound_of_isPlain (h : scan? content = some head)
    (hplain : head.IsPlain ∨ head.id? = none ∧ head.classes = []) :
    Compound.parse head.ownCompound.text = head.ownCompound := by
  by_cases hname : head.IsPlain
  · exact (isPlain_ownCompound h hname).parse_text
  · obtain ⟨hid, hclasses⟩ := hplain.resolve_left hname
    cases helement : head.element with
    | none => exact absurd (by simp [IsPlain, helement]) hname
    | some name =>
      have hown : head.ownCompound = ⟨some name, none, []⟩ := by
        rw [ownCompound, helement, hid, hclasses]
      have hparse := parse_append_of_not_isPlain h helement hname []
      rw [List.append_nil] at hparse
      rw [hown, Compound.text_eq]
      simpa [Compound.writtenMarks] using hparse

/-- Otherwise the tag name is taken to have the sign of a mark in it. -/
theorem parse_ownCompound_of_not_isPlain (h : scan? content = some head) (hname : ¬head.IsPlain)
    (hmarks : ¬(head.id? = none ∧ head.classes = [])) :
    ∃ name c, c ∈ name ∧ (c = '#' ∨ c = '.') ∧
      Compound.parse head.ownCompound.text = ⟨some name, none, []⟩ := by
  cases helement : head.element with
  | none => exact absurd (by simp [IsPlain, helement]) hname
  | some name =>
    obtain ⟨mark, marks, hcons⟩ : ∃ mark marks, head.ownCompound.writtenMarks = mark :: marks :=
      List.exists_cons_of_ne_nil (mt Compound.writtenMarks_eq_nil_iff.1 hmarks)
    have hmark := isPart_of_mem_ownCompound h mark (by rw [hcons]; exact List.mem_cons_self)
    refine ⟨name ++ head.ownCompound.writtenMarks.flatMap Mark.text, mark.sign, ?_, hmark.sign, ?_⟩
    · rw [hcons]
      exact List.mem_append_right name List.mem_cons_self
    · rw [Compound.text_eq, show head.ownCompound.element = some name from helement,
        Option.getD_some, parse_append_of_not_isPlain h helement hname]

/-- A line that opens an element has a selector that is written from its own head, as its tag name,
its first identifier and its classes. That selects the line if there are only letters and digits in
the tag name, or neither an identifier nor a class behind it. Otherwise it selects no line of any
tree. -/
theorem selects_ownCompound {tree : LineTree} {i : Nat} {line : SlimLine}
    (hline : tree.lines[i]? = some line) (helement : line.kind.isElement = true)
    (hscan : scan? line.content = some head)
    (hne : head.element ≠ none ∨ head.id? ≠ none ∨ head.classes ≠ []) :
    ∃ selector, Selector.parse head.ownCompound.text = .ok selector ∧
      (head.IsPlain ∨ head.id? = none ∧ head.classes = [] → selector.selects tree i = true) ∧
      (¬(head.IsPlain ∨ head.id? = none ∧ head.classes = []) →
        ∀ other j, selector.selects other j = false) := by
  have hparse : Selector.parse ([] ++ (head.ownCompound.text ++ [])) = .ok (.simple _) :=
    (isSide_ownCompound hscan hne).parse_eq (by simp) (by simp)
  rw [List.nil_append, List.append_nil] at hparse
  refine ⟨_, hparse, fun hplain => ?_, fun hplain other j => ?_⟩
  · rw [parse_ownCompound_of_isPlain hscan hplain, Selector.selects_simple_iff]
    exact ⟨line, hline, Compound.selects_iff.2 ⟨helement, head, hscan, matchesHead_ownCompound head⟩⟩
  · obtain ⟨hname, hmarks⟩ := not_or.1 hplain
    obtain ⟨name, c, hmem, hsign, hparts⟩ := parse_ownCompound_of_not_isPlain hscan hname hmarks
    rw [hparts, ← Bool.not_eq_true, Selector.selects_simple_iff]
    rintro ⟨line, -, hselects⟩
    obtain ⟨-, found, hfound, hmatches⟩ := Compound.selects_iff.1 hselects
    exact Bool.false_ne_true ((not_matchesHead_of_sign hmem hsign hfound).symm.trans hmatches)

/-- A page with custom elements, one of them with a class. -/
def pageWithWidgets : LineTree :=
  .ofSource .standard "my-widget A\nh1.b#top.a B\nmy-widget.card C\n".toList

theorem selects_ownCompound_widgets :
    (∃ selector, Selector.parse "my-widget".toList = .ok selector ∧
      selector.selects pageWithWidgets 0 = true) ∧
    (∃ selector, Selector.parse "h1#top.b.a".toList = .ok selector ∧
      selector.selects pageWithWidgets 1 = true) ∧
    ∃ selector, Selector.parse "my-widget.card".toList = .ok selector ∧
      ∀ other j, selector.selects other j = false := by
  have hwidget := @selects_ownCompound ⟨some "my-widget".toList, [], none, " A".toList⟩
    pageWithWidgets 0 ⟨"my-widget A".toList, "my-widget A".toList, 0, 1, .element⟩
    (by decide +kernel) rfl (by decide +kernel) (by decide)
  have htitle := @selects_ownCompound
    ⟨some "h1".toList, [⟨'.', "b".toList⟩, ⟨'#', "top".toList⟩, ⟨'.', "a".toList⟩], none,
      " B".toList⟩
    pageWithWidgets 1 ⟨"h1.b#top.a B".toList, "h1.b#top.a B".toList, 0, 2, .element⟩
    (by decide +kernel) rfl (by decide +kernel) (by decide)
  have hcard := @selects_ownCompound
    ⟨some "my-widget".toList, [⟨'.', "card".toList⟩], none, " C".toList⟩
    pageWithWidgets 2 ⟨"my-widget.card C".toList, "my-widget.card C".toList, 0, 3, .element⟩
    (by decide +kernel) rfl (by decide +kernel) (by decide)
  obtain ⟨selector, hparse, hselects, -⟩ := hwidget
  obtain ⟨titleSelector, htitleParse, htitleSelects, -⟩ := htitle
  obtain ⟨cardSelector, hcardParse, -, hnone⟩ := hcard
  exact ⟨⟨selector, hparse, hselects (by decide)⟩,
    ⟨titleSelector, htitleParse, htitleSelects (by decide)⟩,
    ⟨cardSelector, hcardParse, hnone (by decide)⟩⟩

/-- A custom element with a class is not selected by its tag name and that class. -/
theorem not_selects_ownCompound :
    ∃ line head selector, pageWithWidgets.lines[2]? = some line ∧ line.kind = .element ∧
      scan? line.content = some head ∧ head.ownCompound.text = "my-widget.card".toList ∧
      Selector.parse head.ownCompound.text = .ok selector ∧
      selector.selects pageWithWidgets 2 = false :=
  ⟨⟨"my-widget.card C".toList, "my-widget.card C".toList, 0, 3, .element⟩,
    ⟨some "my-widget".toList, [⟨'.', "card".toList⟩], none, " C".toList⟩,
    .simple ⟨some "my-widget.card".toList, none, []⟩, by decide +kernel, rfl, by decide +kernel,
    by decide, by decide +kernel, by decide +kernel⟩

end Head

end SlimTemplate
