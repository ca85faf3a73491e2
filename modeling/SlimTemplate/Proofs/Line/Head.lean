import SlimTemplate.Line.Head
import SlimTemplate.Proofs.Text.Blank
import SlimTemplate.Proofs.Text.Search

/-!
# Heads read without what follows them

Reading a head stops before the blank behind it and never looks further. So a head that a line
begins with is a line of its own: the same head is read from it, with nothing behind.

## Main statements

* `Head.text_append_remainder`: a line is its head and what follows the head.
* `Head.scan?_text`: a head alone is read as the same head.
* `Head.getLast?_text_not_isBlank`: a head with a blank behind it does not end with a blank.
-/

namespace SlimTemplate.Head

variable {c : Char} {text rest : Text}

theorem isTagChar_eq_false_of_isBlank (hc : Text.isBlank c = true) : isTagChar c = false := by
  by_contra h
  rw [Bool.not_eq_false, isTagChar, Bool.or_eq_true, Bool.or_eq_true, Bool.or_eq_true] at h
  rcases h with ((h | h) | h) | h
  · rw [Text.isBlank_eq_false_of_isAlphanum h] at hc
    exact Bool.false_ne_true hc
  all_goals
    rw [beq_iff_eq] at h
    subst h
    exact absurd hc (by decide)

theorem isTagChar_of_isNameChar (h : isNameChar c = true) : isTagChar c = true := by
  rw [isTagChar, ← isNameChar, h]
  rfl

/-- Neither sign of a mark and no bracket is blank. -/
theorem ne_sign_of_isBlank (hc : Text.isBlank c = true) : c ≠ '#' ∧ c ≠ '.' ∧ c ≠ '[' := by
  refine ⟨?_, ?_, ?_⟩
  all_goals
    intro h
    subst h
    exact absurd hc (by decide)

/-! ## Identifiers and classes -/

/-- A character that is in no name and begins no mark. -/
def EndsName (c : Char) : Prop :=
  isTagChar c = false ∧ c ≠ '#' ∧ c ≠ '.'

theorem endsName_of_isBlank (hc : Text.isBlank c = true) : EndsName c :=
  ⟨isTagChar_eq_false_of_isBlank hc, (ne_sign_of_isBlank hc).1, (ne_sign_of_isBlank hc).2.1⟩

theorem EndsName.isNameChar_eq_false (hc : EndsName c) : isNameChar c = false := by
  by_contra hname
  have htag := isTagChar_of_isNameChar (Bool.not_eq_false _ ▸ hname)
  exact absurd (htag.symm.trans hc.1) (by decide)

theorem readMarks_cons_of_endsName (hc : EndsName c) (rest : Text) :
    readMarks (c :: rest) = ([], c :: rest) := by
  rw [readMarks]
  simp [hc.2.1, hc.2.2]

/-- Marks are read up to a character that ends a name, and what stands before that character
decides about them. -/
theorem readMarks_append_cons (hc : EndsName c) (text rest : Text) :
    readMarks (text ++ c :: rest) = ((readMarks text).1, (readMarks text).2 ++ c :: rest) := by
  have hname := hc.isNameChar_eq_false
  -- A name ends before the character, so each mark is the same with and without what follows.
  fun_induction readMarks text with
  | case1 => exact readMarks_cons_of_endsName hc rest
  | case2 d text name hmark marks after hread ih =>
    rw [hread] at ih
    rw [List.cons_append, readMarks, Text.takeWhile_append_cons_of_neg hname,
      Text.dropWhile_append_cons_of_neg hname, if_pos hmark, ih]
  | case3 d text name hmark =>
    rw [List.cons_append, readMarks, Text.takeWhile_append_cons_of_neg hname, if_neg hmark]

theorem flatMap_text_readMarks (text : Text) :
    (readMarks text).1.flatMap Mark.text ++ (readMarks text).2 = text := by
  fun_induction readMarks text with
  | case1 => rfl
  | case2 d text name hmark marks after hread ih =>
    rw [hread] at ih
    rw [List.flatMap_cons, List.append_assoc, ih, Mark.text, List.cons_append,
      List.takeWhile_append_dropWhile]
  | case3 => rfl

theorem mem_readMarks {text : Text} :
    ∀ d ∈ (readMarks text).1.flatMap Mark.text, d = '#' ∨ d = '.' ∨ isNameChar d = true := by
  fun_induction readMarks text with
  | case1 => simp
  | case2 sign text name hmark marks after hread ih =>
    rw [hread] at ih
    intro d hd
    rw [List.flatMap_cons, Mark.text, List.cons_append, List.mem_cons, List.mem_append] at hd
    rcases hd with rfl | hd | hd
    · have hsign : d = '#' ∨ d = '.' := by
        simpa using (Bool.and_eq_true_iff.1 hmark).1
      exact hsign.imp_right Or.inl
    · exact Or.inr (Or.inr (List.mem_takeWhile_imp hd))
    · exact ih d hd
  | case3 => simp

theorem isBlank_eq_false_of_mem_readMarks {text : Text} :
    ∀ d ∈ (readMarks text).1.flatMap Mark.text, Text.isBlank d = false := by
  intro d hd
  by_contra hblank
  rw [Bool.not_eq_false] at hblank
  obtain ⟨hid, hclass, -⟩ := ne_sign_of_isBlank hblank
  rcases mem_readMarks d hd with rfl | rfl | hname
  · exact hid rfl
  · exact hclass rfl
  · rw [(endsName_of_isBlank hblank).isNameChar_eq_false] at hname
    exact Bool.false_ne_true hname

/-! ## Attributes -/

/-- What a bracket list does at a character depends on that character alone: the list ends there,
or it goes on in a state that the rest of the text has no part in. -/
theorem readBrackets_cons (depth : Nat) (quote : Option Char) (c : Char) :
    (c = ']' ∧ ∀ text, readBrackets depth quote (c :: text) = ([c], text)) ∨
      ∃ depth' quote', ∀ text, readBrackets depth quote (c :: text) =
        (c :: (readBrackets depth' quote' text).1, (readBrackets depth' quote' text).2) := by
  cases quote with
  | some q => exact Or.inr ⟨depth, if c = q then none else some q, fun _ => rfl⟩
  | none =>
    by_cases hquote : c = '"' ∨ c = '\''
    · exact Or.inr ⟨depth, some c, fun text => by simp [readBrackets, hquote]⟩
    by_cases hopen : c = '['
    · subst hopen
      exact Or.inr ⟨depth + 1, none, fun text => by simp [readBrackets]⟩
    by_cases hclose : c = ']'
    · subst hclose
      by_cases hdepth : depth ≤ 1
      · exact Or.inl ⟨rfl, fun text => by simp [readBrackets, hdepth]⟩
      · exact Or.inr ⟨depth - 1, none, fun text => by simp [readBrackets, hdepth]⟩
    · exact Or.inr ⟨depth, none, fun text => by simp [readBrackets, hquote, hopen, hclose]⟩

theorem readBrackets_append (depth : Nat) (quote : Option Char) (text : Text) :
    (readBrackets depth quote text).1 ++ (readBrackets depth quote text).2 = text := by
  induction text generalizing depth quote with
  | nil => rfl
  | cons c text ih =>
    rcases readBrackets_cons depth quote c with ⟨-, hend⟩ | ⟨depth', quote', hmore⟩
    · rw [hend]
      rfl
    · rw [hmore, List.cons_append, ih]

/-- A bracket list is read as itself when nothing follows it. -/
theorem readBrackets_list (depth : Nat) (quote : Option Char) (text : Text) :
    readBrackets depth quote (readBrackets depth quote text).1 =
      ((readBrackets depth quote text).1, []) := by
  induction text generalizing depth quote with
  | nil => rfl
  | cons c text ih =>
    rcases readBrackets_cons depth quote c with ⟨-, hend⟩ | ⟨depth', quote', hmore⟩
    · rw [hend, hend]
    · rw [hmore, hmore, ih]

/-- A bracket list with something behind it was closed. -/
theorem getLast?_readBrackets {depth : Nat} {quote : Option Char} {text : Text}
    (h : (readBrackets depth quote text).2 ≠ []) :
    (readBrackets depth quote text).1.getLast? = some ']' := by
  induction text generalizing depth quote with
  | nil => exact absurd rfl h
  | cons c text ih =>
    rcases readBrackets_cons depth quote c with ⟨hc, hend⟩ | ⟨depth', quote', hmore⟩
    · rw [hend, hc]
      rfl
    · rw [hmore] at h ⊢
      rw [List.getLast?_cons, ih h]
      rfl

theorem readAttributes_of_not_bracket (hc : c ≠ '[') (text : Text) :
    readAttributes (c :: text) = (none, c :: text) := by
  rw [readAttributes]
  intro after h
  exact hc (List.cons.inj h).1

theorem readAttributes_bracket (text : Text) :
    readAttributes ('[' :: text) =
      (some (readBrackets 0 none ('[' :: text)).1, (readBrackets 0 none ('[' :: text)).2) :=
  rfl

theorem readAttributes_append (text : Text) :
    (readAttributes text).1.getD [] ++ (readAttributes text).2 = text := by
  unfold readAttributes
  split
  · exact readBrackets_append 0 none _
  · rfl

/-- Attributes that end before a blank are read without it as well. -/
theorem readAttributes_of_append (hc : Text.isBlank c = true)
    (h : (readAttributes (text ++ c :: rest)).2 = c :: rest) :
    readAttributes text = ((readAttributes (text ++ c :: rest)).1, []) := by
  cases text with
  | nil =>
    rw [List.nil_append, readAttributes_of_not_bracket (ne_sign_of_isBlank hc).2.2]
    rfl
  | cons d text =>
    by_cases hd : d = '['
    · subst hd
      rw [List.cons_append, readAttributes_bracket] at h ⊢
      -- The list is all of the text before the blank, and it is read again as itself.
      have happend := readBrackets_append 0 none ('[' :: (text ++ c :: rest))
      rw [h, ← List.cons_append, List.append_cancel_right_eq] at happend
      have hlist := readBrackets_list 0 none ('[' :: (text ++ c :: rest))
      rw [← List.cons_append] at hlist
      rw [happend] at hlist
      rw [readAttributes_bracket, hlist, ← List.cons_append, happend]
    · rw [List.cons_append, readAttributes_of_not_bracket hd] at h
      have hlength := congrArg List.length h
      simp only [List.length_cons, List.length_append] at hlength
      omega

theorem getLast?_readAttributes {text list : Text} (h : (readAttributes text).1 = some list)
    (hne : (readAttributes text).2 ≠ []) : list.getLast? = some ']' := by
  unfold readAttributes at h hne
  split at h
  · rw [← Option.some.inj h]
    exact getLast?_readBrackets hne
  · exact absurd h (by simp)

/-! ## Whole heads -/

variable {element : Option Text} {content : Text} {head : Head}

theorem scanAfterName_eq (element : Option Text) (text : Text) :
    scanAfterName element text =
      ⟨element, (readMarks text).1, (readAttributes (readMarks text).2).1,
        (readAttributes (readMarks text).2).2⟩ :=
  rfl

theorem text_scanAfterName (element : Option Text) (text : Text) :
    (scanAfterName element text).text ++ (scanAfterName element text).remainder =
      element.getD [] ++ text := by
  rw [scanAfterName_eq, Head.text, List.append_assoc, readAttributes_append, List.append_assoc,
    flatMap_text_readMarks]

theorem scanAfterName_of_append (hc : Text.isBlank c = true)
    (h : (scanAfterName element (text ++ c :: rest)).remainder = c :: rest) :
    scanAfterName element text =
      { scanAfterName element (text ++ c :: rest) with remainder := [] } := by
  rw [scanAfterName_eq, readMarks_append_cons (endsName_of_isBlank hc)] at h
  rw [scanAfterName_eq element text, readAttributes_of_append hc h,
    scanAfterName_eq element (text ++ c :: rest), readMarks_append_cons (endsName_of_isBlank hc)]

theorem scan?_of_isAlpha (hc : c.isAlpha = true) (text : Text) :
    scan? (c :: text) = some (scanAfterName (some (c :: text.takeWhile isTagChar))
      (text.dropWhile isTagChar)) := by
  rw [scan?, if_pos hc]

theorem scan?_of_sign (hc : c = '#' ∨ c = '.') (text : Text) :
    scan? (c :: text) = some (scanAfterName none (c :: text)) := by
  have halpha : c.isAlpha = false := by
    rcases hc with rfl | rfl <;> decide
  rw [scan?, if_neg (by simp [halpha]), if_pos (by simpa using hc)]

/-- A line with a head begins with a letter or the sign of a mark. -/
theorem scan?_eq_some (h : scan? content = some head) :
    ∃ c text, content = c :: text ∧ (c.isAlpha = true ∨ c = '#' ∨ c = '.') := by
  cases content with
  | nil => exact absurd h (by simp [scan?])
  | cons c text =>
    refine ⟨c, text, rfl, ?_⟩
    by_contra hc
    rw [not_or, Bool.not_eq_true] at hc
    simp [scan?, hc.1, not_or.1 hc.2] at h

/-- A line is its head and what follows the head. -/
theorem text_append_remainder (h : scan? content = some head) :
    head.text ++ head.remainder = content := by
  obtain ⟨c, text, rfl, halpha | hsign⟩ := scan?_eq_some h
  · rw [scan?_of_isAlpha halpha, Option.some.injEq] at h
    rw [← h, text_scanAfterName, Option.getD_some, List.cons_append,
      List.takeWhile_append_dropWhile]
  · rw [scan?_of_sign hsign, Option.some.injEq] at h
    rw [← h, text_scanAfterName, Option.getD_none, List.nil_append]

/-- The head before a blank is read without the blank as well. -/
theorem scan?_of_append (hc : Text.isBlank c = true)
    (h : scan? (text ++ c :: rest) = some head) (hrest : head.remainder = c :: rest) :
    scan? text = some { head with remainder := [] } := by
  obtain ⟨d, after, hcons, hd⟩ := scan?_eq_some h
  -- A head does not begin with a blank, so something stands before the one behind the head.
  cases text with
  | nil =>
    obtain ⟨rfl, -⟩ := List.cons.inj hcons
    obtain ⟨hid, hclass, -⟩ := ne_sign_of_isBlank hc
    rcases hd with hd | rfl | rfl
    · rw [Text.isBlank_eq_false_of_isAlpha hd] at hc
      exact absurd hc Bool.false_ne_true
    · exact absurd rfl hid
    · exact absurd rfl hclass
  | cons d' text =>
    obtain ⟨rfl, -⟩ := List.cons.inj hcons
    have htag := isTagChar_eq_false_of_isBlank hc
    rw [List.cons_append] at h
    rcases hd with hd | hd
    · rw [scan?_of_isAlpha hd, Text.takeWhile_append_cons_of_neg htag,
        Text.dropWhile_append_cons_of_neg htag, Option.some.injEq] at h
      subst h
      rw [scan?_of_isAlpha hd, scanAfterName_of_append hc hrest]
    · rw [scan?_of_sign hd, Option.some.injEq, ← List.cons_append] at h
      subst h
      rw [scan?_of_sign hd, scanAfterName_of_append hc hrest]

/-- A head with a blank behind it is read as the same head where it stands alone. -/
theorem scan?_text (h : scan? content = some head) (hrest : head.remainder = c :: rest)
    (hc : Text.isBlank c = true) : scan? head.text = some { head with remainder := [] } := by
  have happend := text_append_remainder h
  rw [hrest] at happend
  rw [← happend] at h
  exact scan?_of_append hc h hrest

theorem isTagChar_of_mem_element (h : scan? content = some head) :
    ∀ d ∈ head.element.getD [], isTagChar d = true := by
  obtain ⟨c, text, rfl, halpha | hsign⟩ := scan?_eq_some h
  · rw [scan?_of_isAlpha halpha, Option.some.injEq] at h
    intro d hd
    rw [← h, scanAfterName_eq, Option.getD_some, List.mem_cons] at hd
    rcases hd with rfl | hd
    · rw [isTagChar, Char.isAlphanum, halpha]
      rfl
    · exact List.mem_takeWhile_imp hd
  · rw [scan?_of_sign hsign, Option.some.injEq] at h
    rw [← h, scanAfterName_eq]
    simp

/-- The tag name of a head holds no blank. -/
theorem isBlank_eq_false_of_mem_element (h : scan? content = some head) :
    ∀ d ∈ head.element.getD [], Text.isBlank d = false := by
  intro d hd
  by_contra hblank
  have htag := isTagChar_of_mem_element h d hd
  rw [isTagChar_eq_false_of_isBlank (Bool.not_eq_false _ ▸ hblank)] at htag
  exact Bool.false_ne_true htag

theorem exists_scanAfterName (h : scan? content = some head) :
    ∃ text, head = scanAfterName head.element text := by
  obtain ⟨c, text, rfl, halpha | hsign⟩ := scan?_eq_some h
  · rw [scan?_of_isAlpha halpha, Option.some.injEq] at h
    subst h
    exact ⟨_, rfl⟩
  · rw [scan?_of_sign hsign, Option.some.injEq] at h
    subst h
    exact ⟨_, rfl⟩

/-- A head with something behind it does not end with a blank: either its brackets were closed,
or it is made of names and signs. -/
theorem getLast?_text_not_isBlank (h : scan? content = some head) (hne : head.remainder ≠ [])
    {d : Char} (hd : head.text.getLast? = some d) : Text.isBlank d = false := by
  obtain ⟨text, htext⟩ := exists_scanAfterName h
  have helement := isBlank_eq_false_of_mem_element h
  rw [htext, scanAfterName_eq] at hne hd
  rw [Head.text] at hd
  cases hattributes : (readAttributes (readMarks text).2).1 with
  | none =>
    rw [hattributes, Option.getD_none, List.append_nil] at hd
    rcases List.mem_append.1 (List.mem_of_getLast? hd) with hmem | hmem
    · exact helement d hmem
    · exact isBlank_eq_false_of_mem_readMarks d hmem
  | some list =>
    have hlast := getLast?_readAttributes hattributes hne
    rw [hattributes, Option.getD_some, List.getLast?_append, hlast] at hd
    rw [← Option.some.inj hd]
    decide

/-- What is in a head but in no name is in its attributes. -/
theorem mem_text_iff (h : scan? content = some head) {d : Char} (htag : isTagChar d = false)
    (hid : d ≠ '#') (hclass : d ≠ '.') : d ∈ head.text ↔ d ∈ head.attributes.getD [] := by
  obtain ⟨text, htext⟩ := exists_scanAfterName h
  have hmarks : head.marks = (readMarks text).1 := by
    rw [htext, scanAfterName_eq]
  rw [Head.text, List.mem_append, List.mem_append, or_iff_right]
  rintro (hmem | hmem)
  · rw [isTagChar_of_mem_element h d hmem] at htag
    exact absurd htag (by decide)
  · rw [hmarks] at hmem
    rcases mem_readMarks d hmem with rfl | rfl | hname
    · exact hid rfl
    · exact hclass rfl
    · rw [isTagChar_of_isNameChar hname] at htag
      exact absurd htag (by decide)

theorem open_mem_readAttributes {text list : Text} (h : (readAttributes text).1 = some list) :
    '[' ∈ list := by
  unfold readAttributes at h
  split at h
  · rw [← Option.some.inj h]
    simp [readBrackets]
  · exact absurd h (by simp)

/-- Brackets stand in a head only around its attributes, so with something behind the head there
are both of them or none. -/
theorem bracket_mem_text_iff (h : scan? content = some head) (hne : head.remainder ≠ []) :
    '[' ∈ head.text ↔ ']' ∈ head.text := by
  rw [mem_text_iff h (by decide) (by decide) (by decide),
    mem_text_iff h (by decide) (by decide) (by decide)]
  obtain ⟨text, htext⟩ := exists_scanAfterName h
  rw [htext, scanAfterName_eq] at hne ⊢
  cases hattributes : (readAttributes (readMarks text).2).1 with
  | none => simp
  | some list =>
    have hlast := getLast?_readAttributes hattributes hne
    exact iff_of_true (open_mem_readAttributes hattributes) (List.mem_of_getLast? hlast)

/-! ## Heads with more behind them -/

/-- A bracket list that is closed before the last character is read without looking at what
follows it. -/
theorem readBrackets_append_of_closed {depth : Nat} {quote : Option Char} {text : Text}
    (h : (readBrackets depth quote (text ++ [c])).2 ≠ []) (more : Text) :
    readBrackets depth quote (text ++ more) =
      ((readBrackets depth quote text).1, (readBrackets depth quote text).2 ++ more) := by
  induction text generalizing depth quote with
  | nil =>
    exfalso
    apply h
    rcases readBrackets_cons depth quote c with ⟨-, hend⟩ | ⟨depth', quote', hmore⟩
    · rw [List.nil_append, hend]
    · rw [List.nil_append, hmore]
      rfl
  | cons d text ih =>
    rcases readBrackets_cons depth quote d with ⟨-, hend⟩ | ⟨depth', quote', hmore⟩
    · rw [List.cons_append, hend, hend]
    · rw [List.cons_append, hmore] at h
      rw [List.cons_append, hmore, hmore, ih h]

theorem readAttributes_append_of_closed {text : Text}
    (h : (readAttributes (text ++ [c])).2 ≠ []) (hc : Text.isBlank c = true) (more : Text) :
    readAttributes (text ++ c :: more) =
      ((readAttributes text).1, (readAttributes text).2 ++ c :: more) := by
  cases text with
  | nil =>
    rw [List.nil_append, readAttributes_of_not_bracket (ne_sign_of_isBlank hc).2.2]
    rfl
  | cons d text =>
    by_cases hd : d = '['
    · subst hd
      rw [List.cons_append, readAttributes_bracket, ← List.cons_append] at h
      rw [List.cons_append, readAttributes_bracket, ← List.cons_append,
        readBrackets_append_of_closed h, readAttributes_bracket]
    · rw [List.cons_append, readAttributes_of_not_bracket hd, readAttributes_of_not_bracket hd]
      rfl

theorem scanAfterName_append_of_closed (hc : Text.isBlank c = true)
    (h : (scanAfterName element (text ++ [c])).remainder ≠ []) (more : Text) :
    scanAfterName element (text ++ c :: more) =
      { scanAfterName element text with
        remainder := (scanAfterName element text).remainder ++ c :: more } := by
  rw [scanAfterName_eq, readMarks_append_cons (endsName_of_isBlank hc)] at h
  rw [scanAfterName_eq, readMarks_append_cons (endsName_of_isBlank hc),
    readAttributes_append_of_closed h hc, scanAfterName_eq element text]

/-- A line whose head ends before a blank behind the line has the same head with anything behind
that blank, and alone. -/
theorem scan?_append_of_closed {again : Head} (hc : Text.isBlank c = true)
    (h : scan? (text ++ [c]) = some again) (hne : again.remainder ≠ []) :
    ∃ head, scan? text = some head ∧ ∀ more, scan? (text ++ c :: more) =
      some { head with remainder := head.remainder ++ c :: more } := by
  obtain ⟨d, after, hcons, hd⟩ := scan?_eq_some h
  have hdc : Text.isBlank d = false := by
    rcases hd with hd | rfl | rfl
    · exact Text.isBlank_eq_false_of_isAlpha hd
    · decide
    · decide
  cases text with
  | nil =>
    obtain ⟨rfl, -⟩ := List.cons.inj hcons
    exact absurd (hc.symm.trans hdc) (by decide)
  | cons d' text =>
    obtain ⟨rfl, -⟩ := List.cons.inj hcons
    have htag := isTagChar_eq_false_of_isBlank hc
    rw [List.cons_append] at h
    rcases hd with hd | hd
    · rw [scan?_of_isAlpha hd, Text.takeWhile_append_cons_of_neg htag,
        Text.dropWhile_append_cons_of_neg htag, Option.some.injEq] at h
      refine ⟨_, scan?_of_isAlpha hd text, fun more => ?_⟩
      rw [List.cons_append, scan?_of_isAlpha hd, Text.takeWhile_append_cons_of_neg htag,
        Text.dropWhile_append_cons_of_neg htag, scanAfterName_append_of_closed hc (h ▸ hne)]
    · rw [scan?_of_sign hd, Option.some.injEq, ← List.cons_append] at h
      refine ⟨_, scan?_of_sign hd text, fun more => ?_⟩
      rw [List.cons_append, scan?_of_sign hd, ← List.cons_append,
        scanAfterName_append_of_closed hc (h ▸ hne)]

end SlimTemplate.Head
