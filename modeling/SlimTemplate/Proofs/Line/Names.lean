import SlimTemplate.Proofs.Line.Head

/-!
# Heads with more names behind them

Where a text is read as names to its end, more can be written behind it: what follows is read on
as if it stood alone, as long as it does not go on with the last name.

## Main definitions

* `Mark.IsName`: a mark that is read as itself.
* `Head.IsNames`: a text that is read as names to its end.

## Main statements

* `Head.readMarks_append`: marks behind marks.
* `Head.readMarks_flatMap_text`: marks as written are read as themselves.
* `Head.scan?_append`: a head that is all names, with more behind it.
* `Head.IsNames.exists_class`: a class behind names is read as a class.
-/

namespace SlimTemplate

/-- A mark that is read as itself. -/
structure Mark.IsName (mark : Mark) : Prop where
  sign : mark.sign = '#' ∨ mark.sign = '.'
  name_ne_nil : mark.name ≠ []
  name : ∀ c ∈ mark.name, Head.isNameChar c = true

namespace Head

variable {text rest : Text}

theorem takeWhile_append_of_head? {p : Char → Bool} (h : ∀ c ∈ rest.head?, p c = false)
    (text : Text) : (text ++ rest).takeWhile p = text.takeWhile p := by
  cases rest with
  | nil => rw [List.append_nil]
  | cons c rest => exact Text.takeWhile_append_cons_of_neg (h c rfl) text rest

theorem dropWhile_append_of_head? {p : Char → Bool} (h : ∀ c ∈ rest.head?, p c = false)
    (text : Text) : (text ++ rest).dropWhile p = text.dropWhile p ++ rest := by
  cases rest with
  | nil => rw [List.append_nil, List.append_nil]
  | cons c rest => exact Text.dropWhile_append_cons_of_neg (h c rfl) text rest

/-- Behind a text that is all marks the reading goes on with what follows. -/
theorem readMarks_append (htext : (readMarks text).2 = [])
    (hrest : ∀ c ∈ rest.head?, isNameChar c = false) :
    readMarks (text ++ rest) = ((readMarks text).1 ++ (readMarks rest).1, (readMarks rest).2) := by
  fun_induction readMarks text with
  | case1 => rfl
  | case2 c text name hmark marks after hread ih =>
    rw [hread] at ih
    rw [List.cons_append, readMarks, takeWhile_append_of_head? hrest,
      dropWhile_append_of_head? hrest, if_pos hmark, ih htext]
    rfl
  | case3 c text name hmark => cases htext

theorem readMarks_nil : readMarks [] = ([], []) := by
  rw [readMarks]

theorem readMarks_text {mark : Mark} (h : mark.IsName) : readMarks mark.text = ([mark], []) := by
  have hname : mark.name.takeWhile isNameChar = mark.name :=
    List.takeWhile_eq_self_iff.2 h.name
  have hafter : mark.name.dropWhile isNameChar = [] := List.dropWhile_eq_nil_iff.2 h.name
  have hmark : ((mark.sign = '#' || mark.sign = '.') && !mark.name.isEmpty) = true := by
    simpa using ⟨h.sign, h.name_ne_nil⟩
  rw [Mark.text, readMarks, hname, hafter, if_pos hmark, readMarks_nil]

/-- The signs of marks are in no name. -/
theorem isNameChar_eq_false_of_mem_head? {marks : List Mark} (h : ∀ mark ∈ marks, mark.IsName) :
    ∀ c ∈ (marks.flatMap Mark.text).head?, isNameChar c = false := by
  cases marks with
  | nil => simp
  | cons mark marks =>
    intro c hc
    obtain rfl : mark.sign = c := Option.some.inj hc
    rcases (h mark List.mem_cons_self).sign with hsign | hsign
    · rw [hsign]
      decide
    · rw [hsign]
      decide

/-- Marks as written are read as themselves. -/
theorem readMarks_flatMap_text {marks : List Mark} (h : ∀ mark ∈ marks, mark.IsName) :
    readMarks (marks.flatMap Mark.text) = (marks, []) := by
  induction marks with
  | nil => exact readMarks_nil
  | cons mark marks ih =>
    obtain ⟨hmark, hmarks⟩ := List.forall_mem_cons.1 h
    have hread := readMarks_text hmark
    rw [List.flatMap_cons, readMarks_append (by rw [hread])
      (isNameChar_eq_false_of_mem_head? hmarks), hread, ih hmarks]
    rfl

theorem scanAfterName_append {element : Option Text} {marks : List Mark}
    (h : scanAfterName element text = ⟨element, marks, none, []⟩)
    (hrest : ∀ c ∈ rest.head?, isNameChar c = false) :
    scanAfterName element (text ++ rest) =
      ⟨element, marks ++ (readMarks rest).1, (readAttributes (readMarks rest).2).1,
        (readAttributes (readMarks rest).2).2⟩ := by
  rw [scanAfterName_eq, Head.mk.injEq] at h
  obtain ⟨-, hmarks, hattributes, hremainder⟩ := h
  have hafter : (readMarks text).2 = [] := by
    rw [← readAttributes_append (readMarks text).2, hattributes, hremainder]
    rfl
  rw [scanAfterName_eq, readMarks_append hafter hrest, hmarks]

/-- Behind a head that is all names the reading goes on with what follows. -/
theorem scan?_append {element : Option Text} {marks : List Mark}
    (h : scan? text = some ⟨element, marks, none, []⟩)
    (hrest : ∀ c ∈ rest.head?, isTagChar c = false) :
    scan? (text ++ rest) =
      some ⟨element, marks ++ (readMarks rest).1, (readAttributes (readMarks rest).2).1,
        (readAttributes (readMarks rest).2).2⟩ := by
  have hname : ∀ c ∈ rest.head?, isNameChar c = false := by
    intro c hc
    rw [← Bool.not_eq_true]
    exact fun hc' => Bool.false_ne_true ((hrest c hc).symm.trans (isTagChar_of_isNameChar hc'))
  -- A head begins with a tag name or at once with a mark.
  obtain ⟨c, text, rfl, hc | hc⟩ := scan?_eq_some h
  · rw [scan?_of_isAlpha hc, Option.some.injEq] at h
    obtain rfl : some (c :: text.takeWhile isTagChar) = element := congrArg Head.element h
    rw [List.cons_append, scan?_of_isAlpha hc, takeWhile_append_of_head? hrest,
      dropWhile_append_of_head? hrest, scanAfterName_append h hname]
  · rw [scan?_of_sign hc, Option.some.injEq] at h
    obtain rfl : none = element := congrArg Head.element h
    rw [List.cons_append, scan?_of_sign hc, ← List.cons_append, scanAfterName_append h hname]

/-! ## Classes behind names -/

/-- A text that is read as names to its end. -/
def IsNames (text : Text) : Prop :=
  text = [] ∨ ∃ element marks, scan? text = some ⟨element, marks, none, []⟩

/-- Names hold no blank. -/
theorem IsNames.isBlank_eq_false (h : IsNames text) : ∀ c ∈ text, Text.isBlank c = false := by
  rcases h with rfl | ⟨element, marks, hscan⟩
  · simp
  · intro c hc
    obtain ⟨after, hafter⟩ := exists_scanAfterName hscan
    have htext := text_append_remainder hscan
    rw [List.append_nil, Head.text, Option.getD_none, List.append_nil] at htext
    rw [← htext] at hc
    rcases List.mem_append.1 hc with hc | hc
    · exact isBlank_eq_false_of_mem_element hscan c hc
    · have hmarks : marks = (readMarks after).1 := by
        rw [scanAfterName_eq] at hafter
        exact congrArg Head.marks hafter
      rw [hmarks] at hc
      exact isBlank_eq_false_of_mem_readMarks c hc

theorem IsNames.isBlank_eq_false_append {name : Text} (h : IsNames text)
    (hname : ∀ c ∈ name, Text.isBlank c = false) :
    ∀ c ∈ text ++ '.' :: name, Text.isBlank c = false := by
  intro c hc
  rcases List.mem_append.1 hc with hc | hc
  · exact h.isBlank_eq_false c hc
  · rcases List.mem_cons.1 hc with rfl | hc
    · decide
    · exact hname c hc

/-- A class behind names is read as a class. -/
theorem IsNames.exists_class {name : Text} (h : IsNames text) (hne : name ≠ [])
    (hname : ∀ c ∈ name, isNameChar c = true) (hrest : ∀ c ∈ rest.head?, isNameChar c = false) :
    ∃ head, scan? (text ++ '.' :: name ++ rest) = some head ∧ name ∈ head.classes := by
  have hmark : Mark.IsName ⟨'.', name⟩ := ⟨Or.inr rfl, hne, hname⟩
  have hself : readMarks ('.' :: name) = ([⟨'.', name⟩], []) := readMarks_text hmark
  have hread : readMarks ('.' :: name ++ rest) =
      (⟨'.', name⟩ :: (readMarks rest).1, (readMarks rest).2) := by
    rw [readMarks_append (by rw [hself]) hrest, hself]
    rfl
  rw [List.append_assoc]
  rcases h with rfl | ⟨element, marks, hscan⟩
  · refine ⟨_, scan?_of_sign (Or.inr rfl) (name ++ rest), ?_⟩
    rw [← List.cons_append, scanAfterName_eq, hread]
    exact List.mem_cons_self
  · have hhead : ∀ c ∈ ('.' :: name ++ rest).head?, isTagChar c = false := by
      intro c hc
      obtain rfl := Option.some.inj hc
      decide
    refine ⟨_, scan?_append hscan hhead, ?_⟩
    rw [hread]
    refine List.mem_map.2 ⟨⟨'.', name⟩, List.mem_filter.2 ⟨?_, rfl⟩, rfl⟩
    exact List.mem_append_right marks List.mem_cons_self

end Head

end SlimTemplate
