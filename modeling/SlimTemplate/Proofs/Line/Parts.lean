import SlimTemplate.Proofs.Line.Names
import SlimTemplate.Proofs.Text.Ascii

/-!
# What heads are made of

The tag name of a head begins with a letter, and its identifiers and classes are not empty. All of
them are made of a few characters of ASCII.

## Main statements

* `Head.element_eq_cons`: the tag name of a head.
* `Head.isName_of_mem_marks`, `Head.exists_isName`: the identifiers and classes of a head.
* `Head.isTagChar_of_mem_toAsciiLower_tagName`: a tag name in small letters.
-/

namespace SlimTemplate.Head

variable {c : Char} {content : Text} {head : Head} {name : Text}

/-! ## Characters -/

theorem isAscii_of_isTagChar (h : isTagChar c = true) : Text.IsAscii c := by
  rw [isTagChar, Bool.or_eq_true, Bool.or_eq_true, Bool.or_eq_true, beq_iff_eq, beq_iff_eq,
    beq_iff_eq] at h
  rcases h with ((halphanum | rfl) | rfl) | rfl
  · exact Text.isAscii_of_isAlphanum halphanum
  all_goals decide

theorem isTagChar_toLower (h : isTagChar c = true) : isTagChar c.toLower = true :=
  Text.forall_isAscii (P := fun d => isTagChar d = true → isTagChar d.toLower = true) (by decide)
    (isAscii_of_isTagChar h) h

/-! ## Tag names -/

theorem element_eq_cons (h : scan? content = some head) :
    ∀ name ∈ head.element, ∃ c rest, name = c :: rest ∧ c.isAlpha = true ∧
      ∀ d ∈ rest, isTagChar d = true := by
  obtain ⟨c, text, rfl, halpha | hsign⟩ := scan?_eq_some h
  · rw [scan?_of_isAlpha halpha, Option.some.injEq] at h
    subst h
    rintro _ ⟨⟩
    exact ⟨c, _, rfl, halpha, fun d hd => List.mem_takeWhile_imp hd⟩
  · rw [scan?_of_sign hsign, Option.some.injEq] at h
    subst h
    rintro _ ⟨⟩

theorem isTagChar_of_mem_tagName (h : scan? content = some head) :
    ∀ c ∈ head.tagName, isTagChar c = true := by
  have helement := isTagChar_of_mem_element h
  intro c hc
  rw [tagName] at hc
  cases hname : head.element with
  | none =>
    rw [hname] at hc
    exact List.all_eq_true.1 (show defaultTag.all isTagChar = true by decide) c hc
  | some name =>
    rw [hname] at hc helement
    exact helement c hc

theorem isTagChar_of_mem_toAsciiLower_tagName (h : scan? content = some head) :
    ∀ c ∈ Text.toAsciiLower head.tagName, isTagChar c = true := by
  intro c hc
  obtain ⟨d, hd, rfl⟩ := List.mem_map.1 hc
  exact isTagChar_toLower (isTagChar_of_mem_tagName h d hd)

/-! ## Identifiers and classes -/

/-- A sign and the name behind it are a mark. -/
theorem isName_takeWhile {text : Text}
    (h : ((c = '#' || c = '.') && !(text.takeWhile isNameChar).isEmpty) = true) :
    Mark.IsName ⟨c, text.takeWhile isNameChar⟩ := by
  rw [Bool.and_eq_true] at h
  exact ⟨by simpa using h.1, by simpa using h.2, fun d hd => List.mem_takeWhile_imp hd⟩

theorem text_takeWhile_append (c : Char) (text : Text) :
    Mark.text ⟨c, text.takeWhile isNameChar⟩ ++ text.dropWhile isNameChar = c :: text := by
  rw [Mark.text, List.cons_append, List.takeWhile_append_dropWhile]

theorem isName_of_mem_readMarks (text : Text) : ∀ mark ∈ (readMarks text).1, mark.IsName := by
  fun_induction readMarks text with
  | case1 => simp
  | case2 c text name hmark marks after hread ih =>
    rw [hread] at ih
    exact List.forall_mem_cons.2 ⟨isName_takeWhile hmark, ih⟩
  | case3 => simp

theorem isName_of_mem_marks (h : scan? content = some head) : ∀ mark ∈ head.marks, mark.IsName := by
  obtain ⟨text, htext⟩ := exists_scanAfterName h
  rw [htext]
  exact isName_of_mem_readMarks text

/-- The identifier and the classes of a head are names behind a sign. -/
theorem exists_isName (h : scan? content = some head)
    (hname : head.id? = some name ∨ name ∈ head.classes) :
    ∃ mark : Mark, mark.IsName ∧ mark.name = name := by
  rcases hname with hid | hclass
  · obtain ⟨mark, hmark, rfl⟩ := Option.map_eq_some_iff.1 hid
    exact ⟨mark, isName_of_mem_marks h mark (List.mem_of_find?_eq_some hmark), rfl⟩
  · obtain ⟨mark, hmark, rfl⟩ := List.mem_map.1 hclass
    exact ⟨mark, isName_of_mem_marks h mark (List.mem_filter.1 hmark).1, rfl⟩

end SlimTemplate.Head
