import SlimTemplate.Proofs.Selector.Compound
import SlimTemplate.Selector.Basic

/-!
# Selectors as written

A selector is cut at its first `>`, and what stands on each side is read without the blanks around
it. What a side is written as has no blank at its ends and no `>`, so a selector as written is cut
between the same sides, unless nothing is written for one of them.

## Main definitions

* `Selector.sides`: the compound selectors of a selector.

## Main statements

* `Selector.parse_of_not_mem`, `Selector.parse_append_cons`: what a text denotes, without a `>` and
  around its first one.
* `Selector.parse_text_iff`: which selectors are read as they are written.
-/

namespace SlimTemplate

namespace Text

variable {c : Char} {before : Text}

theorem cutAt?_append_cons (h : c ∉ before) (after : Text) :
    cutAt? [c] (before ++ c :: after) = some (before, after) := by
  induction before with
  | nil => simp [cutAt?, dropPrefix?]
  | cons d before ih =>
    obtain ⟨hd, hbefore⟩ := List.ne_and_not_mem_of_not_mem_cons h
    simp [cutAt?, dropPrefix?, hd, ih hbefore]

theorem trim_trimStart (text : Text) : trim (trimStart text) = trim text := by
  conv_rhs => rw [← List.takeWhile_append_dropWhile (p := isBlank) (l := text)]
  exact (trim_append_of_isBlank_left (fun d hd => List.mem_takeWhile_imp hd) _).symm

theorem trim_trimEnd (text : Text) : trim (trimEnd text) = trim text := by
  conv_rhs => rw [← trimEnd_append_rtakeWhile text]
  refine (trim_append_of_isBlank_right (fun d hd => ?_) _).symm
  exact List.mem_rtakeWhile_imp hd

/-- Around a character that is no blank each part is trimmed at its own end. -/
theorem trim_append_cons (h : isBlank c = false) (before after : Text) :
    trim (before ++ c :: after) = trimStart before ++ c :: trimEnd after := by
  rw [trim, trimStart, dropWhile_append_cons_of_neg h, trimEnd_append_cons h, trimStart]

end Text

namespace Selector

variable {text a b side before behind left right parent child : Text} {selector : Selector}

/-! ## Reading -/

/-- A text without a `>` denotes a simple selector if anything is left of it when it is trimmed. -/
theorem parse_of_not_mem (h : '>' ∉ text) :
    parse text =
      if Text.trim text = [] then .error .blank else .ok (.simple (.parse (Text.trim text))) := by
  have hcut : Text.cutAt? ['>'] (Text.trim text) = none :=
    Text.cutAt?_eq_none fun hmem => h (Text.mem_of_mem_trim (hmem.subset List.mem_cons_self))
  simp only [parse, hcut, List.isEmpty_iff]

/-- Around its first `>` a text has two sides, which have to be there and without another `>`. -/
theorem parse_append_cons (h : '>' ∉ a) (b : Text) :
    parse (a ++ '>' :: b) =
      if '>' ∈ Text.trim b then .error (.chained (Text.trim (a ++ '>' :: b)))
      else if Text.trim a = [] ∨ Text.trim b = [] then
        .error (.blankSide (Text.trim (a ++ '>' :: b)))
      else .ok (.below (.parse (Text.trim a)) (.parse (Text.trim b))) := by
  have htrim := Text.trim_append_cons (c := '>') (by decide) a b
  have hstart : '>' ∉ Text.trimStart a := fun hmem => h ((Text.trimStart_suffix a).subset hmem)
  have hcut : Text.cutAt? ['>'] (Text.trim (a ++ '>' :: b)) =
      some (Text.trimStart a, Text.trimEnd b) := by
    rw [htrim, Text.cutAt?_append_cons hstart]
  have hne : (Text.trim (a ++ '>' :: b)).isEmpty = false := by
    rw [htrim]
    simp
  simp only [parse, hne, hcut, Text.trim_trimStart, Text.trim_trimEnd, List.contains_iff_mem,
    Bool.or_eq_true, List.isEmpty_iff, Bool.false_eq_true, if_false]

/-! ## Sides -/

/-- A text that can stand on a side of a selector. -/
structure IsSide (side : Text) : Prop where
  trim_eq : Text.trim side = side
  ne_nil : side ≠ []
  not_mem : '>' ∉ side

theorem isSide_trim (h : '>' ∉ text) (hne : Text.trim text ≠ []) : IsSide (Text.trim text) :=
  ⟨Text.trim_trim text, hne, fun hmem => h (Text.mem_of_mem_trim hmem)⟩

/-- What is written in the usual form can stand on a side. -/
theorem isSide_of_isPlainChar (hne : side ≠ [])
    (h : ∀ c ∈ side, Compound.isPlainChar c = true) : IsSide side where
  trim_eq := Text.trim_eq_self_of_forall fun c hc => (Compound.isPlainChar_ne (h c hc)).1
  ne_nil := hne
  not_mem := fun hmem => (Compound.isPlainChar_ne (h '>' hmem)).2 rfl

theorem IsSide.trim_surrounded (h : IsSide side) (hbefore : ∀ c ∈ before, Text.isBlank c = true)
    (hbehind : ∀ c ∈ behind, Text.isBlank c = true) :
    Text.trim (before ++ (side ++ behind)) = side := by
  rw [Text.trim_append_of_isBlank_left hbefore, Text.trim_append_of_isBlank_right hbehind,
    h.trim_eq]

theorem IsSide.not_mem_surrounded (h : IsSide side)
    (hbefore : ∀ c ∈ before, Text.isBlank c = true)
    (hbehind : ∀ c ∈ behind, Text.isBlank c = true) : '>' ∉ before ++ (side ++ behind) := by
  have hblank : Text.isBlank '>' ≠ true := by decide
  simp only [List.mem_append, not_or]
  exact ⟨fun hmem => hblank (hbefore _ hmem), h.not_mem, fun hmem => hblank (hbehind _ hmem)⟩

/-- A side with blanks around it is a simple selector. -/
theorem IsSide.parse_eq (h : IsSide side) (hbefore : ∀ c ∈ before, Text.isBlank c = true)
    (hbehind : ∀ c ∈ behind, Text.isBlank c = true) :
    parse (before ++ (side ++ behind)) = .ok (.simple (.parse side)) := by
  rw [parse_of_not_mem (h.not_mem_surrounded hbefore hbehind), h.trim_surrounded hbefore hbehind,
    if_neg h.ne_nil]

/-- Two sides with a `>` between them and blanks around each are a selector with two sides. -/
theorem IsSide.parse_below (hparent : IsSide parent) (hchild : IsSide child)
    (hbefore : ∀ c ∈ before, Text.isBlank c = true) (hleft : ∀ c ∈ left, Text.isBlank c = true)
    (hright : ∀ c ∈ right, Text.isBlank c = true)
    (hbehind : ∀ c ∈ behind, Text.isBlank c = true) :
    parse (before ++ (parent ++ left) ++ '>' :: (right ++ (child ++ behind))) =
      .ok (.below (.parse parent) (.parse child)) := by
  rw [parse_append_cons (hparent.not_mem_surrounded hbefore hleft),
    hparent.trim_surrounded hbefore hleft, hchild.trim_surrounded hright hbehind,
    if_neg hchild.not_mem, if_neg (by simp [hparent.ne_nil, hchild.ne_nil])]

/-- A selector is read from one side or from two. -/
theorem exists_isSide_of_parse (h : parse text = .ok selector) :
    (∃ side, IsSide side ∧ selector = .simple (.parse side)) ∨
      ∃ parent child, IsSide parent ∧ IsSide child ∧
        selector = .below (.parse parent) (.parse child) := by
  by_cases hmem : '>' ∈ text
  · obtain ⟨a, b, rfl, ha⟩ := List.eq_append_cons_of_mem hmem
    rw [parse_append_cons ha] at h
    split at h
    · cases h
    split at h
    · cases h
    next hchained hsides =>
      obtain ⟨hparent, hchild⟩ := not_or.1 hsides
      exact Or.inr ⟨_, _, isSide_trim ha hparent, ⟨Text.trim_trim b, hchild, hchained⟩,
        (Except.ok.inj h).symm⟩
  · rw [parse_of_not_mem hmem] at h
    split at h
    · cases h
    next hne => exact Or.inl ⟨_, isSide_trim hmem hne, (Except.ok.inj h).symm⟩

/-! ## Writing -/

/-- The compound selectors of a selector. -/
def sides : Selector → List Compound
  | simple compound => [compound]
  | below parent child => [parent, child]

/-- Nothing is written for a compound selector that was read exactly if it asks for nothing. -/
theorem text_parse_eq_nil_iff :
    (Compound.parse text).text = [] ↔ Compound.parse text = ⟨none, none, []⟩ := by
  constructor
  · intro hnil
    have hagain := Compound.parse_text_parse text
    rw [hnil] at hagain
    exact hagain.symm
  · intro hempty
    rw [hempty]
    rfl

/-- What is written for a side can stand on a side, if it is anything. -/
theorem IsSide.isSide_text (h : IsSide side) (hne : Compound.parse side ≠ ⟨none, none, []⟩) :
    IsSide (Compound.parse side).text := by
  rcases Compound.isPlain_parse_or_text_parse side with hplain | htext
  · exact isSide_of_isPlainChar (mt text_parse_eq_nil_iff.1 hne) hplain.isPlainChar
  · rwa [htext]

theorem IsSide.text_parse (h : IsSide side) :
    '>' ∉ (Compound.parse side).text ∧
      Text.trim (Compound.parse side).text = (Compound.parse side).text := by
  by_cases hempty : Compound.parse side = ⟨none, none, []⟩
  · rw [text_parse_eq_nil_iff.2 hempty]
    exact ⟨List.not_mem_nil, rfl⟩
  · have hside := h.isSide_text hempty
    exact ⟨hside.not_mem, hside.trim_eq⟩

/-- One side as written is read again, if anything is written. -/
theorem IsSide.parse_text_simple (h : IsSide side) :
    parse (simple (.parse side)).text =
      if Compound.parse side = ⟨none, none, []⟩ then .error .blank
      else .ok (simple (.parse side)) := by
  obtain ⟨hmem, htrim⟩ := h.text_parse
  rw [text, parse_of_not_mem hmem, htrim, Compound.parse_text_parse]
  simp only [text_parse_eq_nil_iff]

/-- Two sides as written are read again, if something is written for both. -/
theorem IsSide.parse_text_below (hparent : IsSide parent) (hchild : IsSide child) :
    parse (below (.parse parent) (.parse child)).text =
      if Compound.parse parent = ⟨none, none, []⟩ ∨ Compound.parse child = ⟨none, none, []⟩ then
        .error (.blankSide (Text.trim (below (.parse parent) (.parse child)).text))
      else .ok (below (.parse parent) (.parse child)) := by
  obtain ⟨hparentMem, hparentTrim⟩ := hparent.text_parse
  obtain ⟨hchildMem, hchildTrim⟩ := hchild.text_parse
  have hspace : ∀ c ∈ [' '], Text.isBlank c = true := Text.forall_of_all (by decide)
  have htext : (below (.parse parent) (.parse child)).text =
      (Compound.parse parent).text ++ [' '] ++ '>' :: ([' '] ++ (Compound.parse child).text) := by
    simp [text]
  have hleft : '>' ∉ (Compound.parse parent).text ++ [' '] := by
    simpa using hparentMem
  rw [htext, parse_append_cons hleft, Text.trim_append_of_isBlank_right hspace,
    Text.trim_append_of_isBlank_left hspace, hparentTrim, hchildTrim, if_neg hchildMem,
    Compound.parse_text_parse, Compound.parse_text_parse]
  simp only [text_parse_eq_nil_iff]

/-- A selector as written denotes the selector itself exactly if each of its sides asks for
something, and it never denotes another one. -/
theorem parse_text_iff (h : parse text = .ok selector) :
    (parse selector.text = .ok selector ↔ ∀ side ∈ selector.sides, side ≠ ⟨none, none, []⟩) ∧
    ∀ again, parse selector.text = .ok again → again = selector := by
  rcases exists_isSide_of_parse h with ⟨side, hside, rfl⟩ | ⟨parent, child, hparent, hchild, rfl⟩
  · rw [hside.parse_text_simple, sides]
    by_cases hempty : Compound.parse side = ⟨none, none, []⟩
    · rw [if_pos hempty]
      simp [hempty]
    · rw [if_neg hempty]
      exact ⟨iff_of_true rfl (by simpa using hempty), fun again hagain => (Except.ok.inj hagain).symm⟩
  · rw [hparent.parse_text_below hchild, sides]
    by_cases hempty : Compound.parse parent = ⟨none, none, []⟩ ∨
        Compound.parse child = ⟨none, none, []⟩
    · rw [if_pos hempty]
      refine ⟨iff_of_false nofun fun hsides => ?_, nofun⟩
      rcases hempty with hempty | hempty
      · exact hsides _ List.mem_cons_self hempty
      · exact hsides _ (List.mem_cons_of_mem _ List.mem_cons_self) hempty
    · rw [if_neg hempty]
      exact ⟨iff_of_true rfl (by simpa [not_or] using hempty),
        fun again hagain => (Except.ok.inj hagain).symm⟩

/-- The first identifier and the classes come in another order, the Kelvin sign is a letter, and a
side that is not in the usual form is kept with the blanks inside of it. -/
theorem parse_text_iff_menu :
    parse "\tnav.a#b.c#d..\u212A > #x y\n".toList =
      .ok (.below ⟨some "nav".toList, some "b".toList, ["a", "c", "\u212A"].map String.toList⟩
        ⟨none, some "x y".toList, []⟩) ∧
    parse "nav#b.a.c.\u212A > #x y".toList =
      .ok (.below ⟨some "nav".toList, some "b".toList, ["a", "c", "\u212A"].map String.toList⟩
        ⟨none, some "x y".toList, []⟩) := by
  have hparse : parse "\tnav.a#b.c#d..\u212A > #x y\n".toList =
      .ok (.below ⟨some "nav".toList, some "b".toList, ["a", "c", "\u212A"].map String.toList⟩
        ⟨none, some "x y".toList, []⟩) := by
    decide +kernel
  exact ⟨hparse, (parse_text_iff hparse).1.2 (by decide +kernel)⟩

end Selector

end SlimTemplate
