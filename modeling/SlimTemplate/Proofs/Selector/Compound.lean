import SlimTemplate.Proofs.Line.Names
import SlimTemplate.Proofs.Text.Ascii
import SlimTemplate.Selector.Compound

/-!
# Compound selectors in the usual form

A tag name of letters and digits with marks behind it is read as what it was written from, the first
identifier and all classes. Conversely, what is read in the usual form is made of such names, so it
is written without blanks and is read again as itself. A text of any other form is written back as
it was read.

## Main definitions

* `Mark.IsPart`, `Compound.IsTag`: marks and tag names of the usual form.
* `Compound.ofParts`, `Compound.writtenMarks`: a compound selector by its parts.
* `Compound.IsPlain`: a compound selector that is written in the usual form.

## Main statements

* `Compound.regular?_append`, `Compound.isTag_and_isPart_of_regular?`: which texts have the usual form.
* `Compound.parse_append`: a tag name with marks behind it.
* `Compound.IsPlain.parse_text`, `Compound.parse_text_parse`: a compound selector as written.
* `Compound.matchesHead_iff`: which heads are matched.
-/

namespace SlimTemplate

/-- A mark that selectors read as itself. -/
structure Mark.IsPart (mark : Mark) : Prop where
  sign : mark.sign = '#' ∨ mark.sign = '.'
  name_ne_nil : mark.name ≠ []
  name : ∀ c ∈ mark.name, Compound.isNameChar c = true

namespace Compound

variable {c : Char} {text name rest : Text} {mark : Mark} {marks : List Mark} {compound : Compound}

/-! ## Characters -/

theorem isNameChar_of_isNameChar (h : Head.isNameChar c = true) : isNameChar c = true := by
  rw [Head.isNameChar, Bool.or_eq_true, Bool.or_eq_true, beq_iff_eq, beq_iff_eq] at h
  rcases h with (h | rfl) | rfl
  · rw [isNameChar, Text.isWordChar_of_isAlphanum h]
    rfl
  · decide
  · decide

theorem isBlank_eq_false_of_isNameChar (h : isNameChar c = true) : Text.isBlank c = false := by
  rw [← Bool.not_eq_true]
  intro hblank
  rw [isNameChar, Text.isWordChar_eq_false_of_isBlank hblank, Bool.false_or, beq_iff_eq] at h
  rw [h] at hblank
  exact absurd hblank (by decide)

theorem isNameChar_eq_false_of_sign (h : c = '#' ∨ c = '.') : isNameChar c = false := by
  rcases h with rfl | rfl <;> decide

/-- The characters of tag names in the usual form. -/
def isElementChar (c : Char) : Bool :=
  isLatinLetter c || c.isDigit

theorem isElementChar_eq_false_of_sign (h : c = '#' ∨ c = '.') : isElementChar c = false := by
  rcases h with rfl | rfl <;> decide

theorem isElementChar_of_isAlphanum (h : c.isAlphanum = true) : isElementChar c = true := by
  rw [Char.isAlphanum, Bool.or_eq_true] at h
  rw [isElementChar, isLatinLetter, Bool.or_eq_true]
  refine h.imp_left fun halpha => ?_
  rw [halpha]
  rfl

/-- What stands in a compound selector of the usual form. -/
def isPlainChar (c : Char) : Bool :=
  isElementChar c || isNameChar c || c == '#' || c == '.'

theorem isPlainChar_ne (h : isPlainChar c = true) : Text.isBlank c = false ∧ c ≠ '>' := by
  rw [isPlainChar, Bool.or_eq_true, Bool.or_eq_true, Bool.or_eq_true, beq_iff_eq, beq_iff_eq] at h
  rcases h with ((helement | hname) | rfl) | rfl
  · rw [isElementChar, isLatinLetter, Bool.or_eq_true, Bool.or_eq_true, Bool.or_eq_true, beq_iff_eq,
      beq_iff_eq] at helement
    rcases helement with ((halpha | rfl) | rfl) | hdigit
    · refine ⟨Text.isBlank_eq_false_of_isAlpha halpha, ?_⟩
      rintro rfl
      exact absurd halpha (by decide)
    · decide
    · decide
    · refine ⟨Text.isBlank_eq_false_of_isAlphanum (by rw [Char.isAlphanum, hdigit, Bool.or_true]), ?_⟩
      rintro rfl
      exact absurd hdigit (by decide)
  · refine ⟨isBlank_eq_false_of_isNameChar hname, ?_⟩
    rintro rfl
    exact absurd hname (by decide)
  · decide
  · decide

/-! ## Marks -/

theorem sign_of_mem_head? (h : ∀ mark ∈ marks, mark.IsPart) :
    ∀ c ∈ (marks.flatMap Mark.text).head?, c = '#' ∨ c = '.' := by
  cases marks with
  | nil => simp
  | cons mark marks =>
    intro c hc
    obtain rfl : mark.sign = c := Option.some.inj hc
    exact (h mark List.mem_cons_self).sign

theorem marksOf_append (h : mark.IsPart) (hrest : ∀ c ∈ rest.head?, isNameChar c = false) :
    marksOf (mark.text ++ rest) = mark :: marksOf rest := by
  rw [Mark.text, List.cons_append, marksOf, Head.takeWhile_append_of_head? hrest,
    Head.dropWhile_append_of_head? hrest, List.takeWhile_eq_self_iff.2 h.name,
    List.dropWhile_eq_nil_iff.2 h.name, List.nil_append]

/-- Marks as written are the marks that are read. -/
theorem marksOf_flatMap_text (h : ∀ mark ∈ marks, mark.IsPart) :
    marksOf (marks.flatMap Mark.text) = marks := by
  induction marks with
  | nil =>
    rw [List.flatMap_nil, marksOf]
  | cons mark marks ih =>
    obtain ⟨hmark, hmarks⟩ := List.forall_mem_cons.1 h
    have hrest : ∀ c ∈ (marks.flatMap Mark.text).head?, isNameChar c = false :=
      fun c hc => isNameChar_eq_false_of_sign (sign_of_mem_head? hmarks c hc)
    rw [List.flatMap_cons, marksOf_append hmark hrest, ih hmarks]

/-- In a text of names and signs that begins with a sign, each mark has a sign, and its name ends
before the next one. -/
theorem sign_and_name_of_mem_marksOf
    (hchars : ∀ c ∈ text, isNameChar c = true ∨ c = '#' ∨ c = '.')
    (hhead : ∀ c ∈ text.head?, c = '#' ∨ c = '.') :
    ∀ mark ∈ marksOf text,
      (mark.sign = '#' ∨ mark.sign = '.') ∧ ∀ c ∈ mark.name, isNameChar c = true := by
  fun_induction marksOf text with
  | case1 => simp
  | case2 c rest ih =>
    refine List.forall_mem_cons.2 ⟨⟨hhead c rfl, fun d hd => List.mem_takeWhile_imp hd⟩, ?_⟩
    refine ih (fun d hd => ?_) fun d hd => ?_
    · exact hchars d (List.mem_cons_of_mem _ ((List.dropWhile_sublist _).mem hd))
    · have hstop := Text.eq_false_of_mem_head?_dropWhile hd
      have hmem := (List.dropWhile_sublist isNameChar).mem (List.mem_of_mem_head? hd)
      refine (hchars d (List.mem_cons_of_mem _ hmem)).resolve_left fun hname => ?_
      simp [hname] at hstop

/-! ## The usual form -/

/-- A text of letters and digits that begins with a letter, or the empty text. -/
structure IsTag (name : Text) : Prop where
  head? : ∀ c ∈ name.head?, isLatinLetter c = true
  chars : ∀ c ∈ name, isElementChar c = true

/-- Whether a character is read as part of the tag name at the start of a text. -/
def isInTag (text : Text) (c : Char) : Bool :=
  (text.head?.map isLatinLetter).getD false && isElementChar c

theorem regular?_eq (text : Text) :
    regular? text =
      match text.dropWhile (isInTag text) with
      | [] => some (text.takeWhile (isInTag text), [])
      | c :: _ =>
        if (c = '#' || c = '.') && (text.dropWhile (isInTag text)).all
            (fun c => isNameChar c || c == '#' || c == '.') then
          some (text.takeWhile (isInTag text),
            (marksOf (text.dropWhile (isInTag text))).filter fun mark => !mark.name.isEmpty)
        else none :=
  rfl

/-- A tag name is read up to the first character that is in none. -/
theorem takeWhile_and_dropWhile_isInTag (hname : IsTag name)
    (hrest : ∀ c ∈ rest.head?, isElementChar c = false) :
    (name ++ rest).takeWhile (isInTag (name ++ rest)) = name ∧
      (name ++ rest).dropWhile (isInTag (name ++ rest)) = rest := by
  have hstop : ∀ c ∈ rest.head?, isInTag (name ++ rest) c = false := by
    intro c hc
    rw [isInTag, hrest c hc, Bool.and_false]
  have hchars : ∀ c ∈ name, isInTag (name ++ rest) c = true := by
    intro c hc
    obtain ⟨first, more, rfl⟩ := List.exists_cons_of_ne_nil (List.ne_nil_of_mem hc)
    have hfirst : isLatinLetter first = true := hname.head? first rfl
    rw [isInTag, hname.chars c hc, Bool.and_true]
    exact hfirst
  rw [Head.takeWhile_append_of_head? hstop, Head.dropWhile_append_of_head? hstop,
    List.takeWhile_eq_self_iff.2 hchars, List.dropWhile_eq_nil_iff.2 hchars]
  exact ⟨rfl, rfl⟩

theorem isPlainChar_of_mem_append (hname : IsTag name) (hmarks : ∀ mark ∈ marks, mark.IsPart) :
    ∀ c ∈ name ++ marks.flatMap Mark.text, isPlainChar c = true := by
  intro c hc
  rw [isPlainChar]
  rcases List.mem_append.1 hc with hc | hc
  · rw [hname.chars c hc]
    rfl
  · obtain ⟨mark, hmark, hc⟩ := List.mem_flatMap.1 hc
    rcases List.mem_cons.1 hc with rfl | hc
    · rcases (hmarks mark hmark).sign with hsign | hsign <;> simp [hsign]
    · simp [(hmarks mark hmark).name c hc]

/-- A tag name with marks behind it has the usual form. -/
theorem regular?_append (hname : IsTag name) (hmarks : ∀ mark ∈ marks, mark.IsPart) :
    regular? (name ++ marks.flatMap Mark.text) = some (name, marks) := by
  have hsign := sign_of_mem_head? hmarks
  obtain ⟨htake, hdrop⟩ := takeWhile_and_dropWhile_isInTag hname
    fun c hc => isElementChar_eq_false_of_sign (hsign c hc)
  have hchars : ∀ c ∈ marks.flatMap Mark.text,
      (isNameChar c || c == '#' || c == '.') = true := by
    intro c hc
    obtain ⟨mark, hmark, hc⟩ := List.mem_flatMap.1 hc
    rcases List.mem_cons.1 hc with rfl | hc
    · rcases (hmarks mark hmark).sign with hsign | hsign <;> simp [hsign]
    · simp [(hmarks mark hmark).name c hc]
  have hread := marksOf_flatMap_text hmarks
  rw [regular?_eq, htake, hdrop]
  cases htext : marks.flatMap Mark.text with
  | nil =>
    rw [htext, marksOf] at hread
    rw [← hread]
  | cons c rest =>
    rw [htext] at hsign hread hchars
    have hfirst : (c = '#' || c = '.') = true := by simpa using hsign c rfl
    have hnamed : marks.filter (fun mark => !mark.name.isEmpty) = marks :=
      List.filter_eq_self.2 fun mark hmark => by simpa using (hmarks mark hmark).name_ne_nil
    simp only [hfirst, List.all_eq_true.2 hchars, hread, hnamed, Bool.and_self, if_true]

/-- A character that is neither in a tag name nor the sign of a mark spoils the form. -/
theorem regular?_append_cons_eq_none (hname : IsTag name) (hc : isElementChar c = false)
    (hsign : c ≠ '#' ∧ c ≠ '.') (rest : Text) : regular? (name ++ c :: rest) = none := by
  have hrest : ∀ d ∈ (c :: rest).head?, isElementChar d = false :=
    fun d hd => Option.some.inj hd ▸ hc
  rw [regular?_eq, (takeWhile_and_dropWhile_isInTag hname hrest).2]
  simp [hsign]

/-- What is read in the usual form is a tag name and marks. -/
theorem isTag_and_isPart_of_regular? (h : regular? text = some (name, marks)) :
    IsTag name ∧ ∀ mark ∈ marks, mark.IsPart := by
  have htag : IsTag (text.takeWhile (isInTag text)) := by
    refine ⟨fun c hc => ?_, fun c hc => ?_⟩
    · have hin : isInTag text c = true := List.mem_takeWhile_imp (List.mem_of_mem_head? hc)
      obtain ⟨rest, hrest⟩ := List.takeWhile_prefix (l := text) (isInTag text)
      have hhead : text.head? = some c := by
        rw [← hrest, List.head?_append, Option.mem_def.1 hc]
        rfl
      rw [isInTag, hhead, Bool.and_eq_true] at hin
      exact hin.1
    · have hin : isInTag text c = true := List.mem_takeWhile_imp hc
      exact (Bool.and_eq_true_iff.1 hin).2
  rw [regular?_eq] at h
  split at h
  · obtain ⟨rfl, rfl⟩ := Prod.mk.inj (Option.some.inj h)
    exact ⟨htag, fun mark hmark => nomatch hmark⟩
  · next c rest hdrop =>
    split at h
    · next hform =>
      obtain ⟨rfl, rfl⟩ := Prod.mk.inj (Option.some.inj h)
      refine ⟨htag, fun mark hmark => ?_⟩
      obtain ⟨hsign, hchars⟩ := Bool.and_eq_true_iff.1 hform
      obtain ⟨hmem, hne⟩ := List.mem_filter.1 hmark
      obtain ⟨hmarkSign, hname⟩ := sign_and_name_of_mem_marksOf
        (fun d hd => by simpa [or_assoc] using List.all_eq_true.1 hchars d hd)
        (fun d hd => by
          rw [hdrop] at hd
          obtain rfl := Option.some.inj hd
          simpa using hsign) mark hmem
      exact ⟨hmarkSign, by simpa using hne, hname⟩
    · cases h

/-! ## Parts of a compound selector -/

/-- The compound selector with a tag name, if that is not empty, the first identifier among marks
and all classes. -/
def ofParts (name : Text) (marks : List Mark) : Compound where
  element := if name.isEmpty then none else some name
  id := (marks.find? (·.sign = '#')).map (·.name)
  classes := (marks.filter (·.sign = '.')).map (·.name)

/-- The marks that a compound selector is written with. -/
def writtenMarks (compound : Compound) : List Mark :=
  (compound.id.map (Mark.mk '#')).toList ++ compound.classes.map (Mark.mk '.')

theorem flatMap_text_eq_nil_iff : marks.flatMap Mark.text = [] ↔ marks = [] := by
  cases marks <;> simp [Mark.text]

theorem writtenMarks_eq_nil_iff :
    compound.writtenMarks = [] ↔ compound.id = none ∧ compound.classes = [] := by
  simp [writtenMarks]

theorem text_eq (compound : Compound) :
    compound.text = compound.element.getD [] ++ compound.writtenMarks.flatMap Mark.text := by
  have hclasses : (compound.classes.map (Mark.mk '.')).flatMap Mark.text =
      compound.classes.flatMap ('.' :: ·) := by
    rw [List.flatMap_map]
    rfl
  rw [text, writtenMarks, List.flatMap_append, hclasses]
  cases compound.id with
  | none => simp
  | some id => simp [Mark.text]

theorem ofParts_writtenMarks (h : compound.element ≠ some []) :
    ofParts (compound.element.getD []) compound.writtenMarks = compound := by
  obtain ⟨element, id, classes⟩ := compound
  have helement : (if (element.getD []).isEmpty then none else some (element.getD [])) = element := by
    cases element with
    | none => rfl
    | some name => simpa using h
  have hid : (classes.map (Mark.mk '.')).find? (·.sign = '#') = none := by
    simp
  have hclasses : ((classes.map (Mark.mk '.')).filter (·.sign = '.')).map (·.name) = classes := by
    have hall : ∀ mark ∈ classes.map (Mark.mk '.'), decide (mark.sign = '.') = true := by
      simp
    rw [List.filter_eq_self.2 hall, List.map_map]
    exact List.map_id classes
  rw [ofParts, Compound.mk.injEq]
  cases id with
  | none => exact ⟨helement, by rw [writtenMarks]; simp [hid], hclasses⟩
  | some id => exact ⟨helement, rfl, hclasses⟩

theorem parse_of_regular? (h : regular? text = some (name, marks)) :
    parse text = ofParts name marks := by
  unfold parse
  rw [h]
  rfl

/-- A tag name with marks behind it is read as its parts. -/
theorem parse_append (hname : IsTag name) (hmarks : ∀ mark ∈ marks, mark.IsPart) :
    parse (name ++ marks.flatMap Mark.text) = ofParts name marks :=
  parse_of_regular? (regular?_append hname hmarks)

/-- A text that does not have the usual form is written back as it was read. -/
theorem text_parse_of_irregular (h : regular? text = none) : (parse text).text = text := by
  unfold parse
  rw [h]
  split
  · next heq => cases heq
  · split <;> simp [Compound.text]

/-- A text without a sign at its start that does not have the usual form is taken for a tag name. -/
theorem parse_of_irregular (h : regular? text = none)
    (hsign : ∀ c ∈ text.head?, c ≠ '#' ∧ c ≠ '.') : parse text = ⟨some text, none, []⟩ := by
  unfold parse
  rw [h]
  split
  · next heq => cases heq
  · split
    · exact absurd rfl (hsign '#' rfl).1
    · exact absurd rfl (hsign '.' rfl).2
    · rfl

/-- A compound selector that is written in the usual form. -/
structure IsPlain (compound : Compound) : Prop where
  element_ne : compound.element ≠ some []
  isTag : IsTag (compound.element.getD [])
  isPart : ∀ mark ∈ compound.writtenMarks, mark.IsPart

/-- The marks that are asked for are among those that were given. -/
theorem isPart_of_mem_writtenMarks (name : Text) (hmarks : ∀ mark ∈ marks, mark.IsPart) :
    ∀ mark ∈ (ofParts name marks).writtenMarks, mark.IsPart := by
  intro mark hmark
  rcases List.mem_append.1 hmark with hmark | hmark
  · obtain ⟨id, hid, rfl⟩ := Option.map_eq_some_iff.1 (Option.mem_toList.1 hmark)
    obtain ⟨first, hfirst, rfl⟩ := Option.map_eq_some_iff.1 hid
    have hpart := hmarks first (List.mem_of_find?_eq_some hfirst)
    exact ⟨Or.inl rfl, hpart.name_ne_nil, hpart.name⟩
  · obtain ⟨name, hname, rfl⟩ := List.mem_map.1 hmark
    obtain ⟨other, hother, rfl⟩ := List.mem_map.1 hname
    have hpart := hmarks other (List.mem_filter.1 hother).1
    exact ⟨Or.inr rfl, hpart.name_ne_nil, hpart.name⟩

theorem isPlain_ofParts (hname : IsTag name) (hmarks : ∀ mark ∈ marks, mark.IsPart) :
    (ofParts name marks).IsPlain where
  element_ne := by
    cases name <;> simp [ofParts]
  isTag := by
    cases name with
    | nil => exact hname
    | cons c name => exact hname
  isPart := isPart_of_mem_writtenMarks name hmarks

/-- A compound selector of the usual form is read as it was written. -/
theorem IsPlain.parse_text (h : compound.IsPlain) : parse compound.text = compound := by
  rw [text_eq, parse_append h.isTag h.isPart, ofParts_writtenMarks h.element_ne]

theorem IsPlain.isPlainChar (h : compound.IsPlain) : ∀ c ∈ compound.text, isPlainChar c = true := by
  rw [text_eq]
  exact isPlainChar_of_mem_append h.isTag h.isPart

/-- A compound selector that was read is in the usual form, or it is written as it was read. -/
theorem isPlain_parse_or_text_parse (text : Text) :
    (parse text).IsPlain ∨ (parse text).text = text := by
  cases hregular : regular? text with
  | none => exact Or.inr (text_parse_of_irregular hregular)
  | some parts =>
    obtain ⟨hname, hmarks⟩ := isTag_and_isPart_of_regular? hregular
    rw [parse_of_regular? hregular]
    exact Or.inl (isPlain_ofParts hname hmarks)

/-- Written and read again, a compound selector that was read is the same. -/
theorem parse_text_parse (text : Text) : parse (parse text).text = parse text := by
  rcases isPlain_parse_or_text_parse text with hplain | htext
  · exact hplain.parse_text
  · rw [htext]

/-! ## Selected lines -/

/-- A head is matched that has the tag name up to case, the identifier and all the classes. -/
theorem matchesHead_iff {head : Head} :
    compound.matchesHead head = true ↔
      (∀ name ∈ compound.element, Text.toAsciiLower head.tagName = Text.toAsciiLower name) ∧
      (∀ id ∈ compound.id, head.id? = some id) ∧
      ∀ name ∈ compound.classes, name ∈ head.classes := by
  obtain ⟨element, id, classes⟩ := compound
  rw [matchesHead, Bool.and_eq_true, Bool.and_eq_true, and_assoc]
  refine and_congr ?_ (and_congr ?_ ?_)
  · cases element with
    | none => simp
    | some name => simp [Text.eqIgnoreAsciiCase]
  · cases id with
    | none => simp
    | some id => simp
  · simp [Head.hasClass]

theorem selects_iff {line : SlimLine} :
    compound.selects line = true ↔
      line.kind.isElement = true ∧
        ∃ head, Head.scan? line.content = some head ∧ compound.matchesHead head = true := by
  rw [selects, Bool.and_eq_true]
  apply and_congr_right
  intro _
  cases Head.scan? line.content with
  | none => simp
  | some head => simp

end Compound

end SlimTemplate
