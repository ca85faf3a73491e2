import SlimTemplate.Proofs.Line.Names
import SlimTemplate.Proofs.Writer.Whole

/-!
# Openings taken apart

The opening of an element whose names are made of the characters that heads are read from is taken
apart into what it was written from: its name, its identifier and classes, and its attributes, with
all that stands behind it left over.

## Main definitions

* `Markup.Element.marks`: the identifier and the classes of an element.
* `Markup.Element.HasScannedNames`: an element with such names, whose attributes can be quoted.

## Main statements

* `Markup.Element.scan?_opening`: the opening of such an element is taken apart.
* `Markup.Element.exists_head_opening`: the head that is read gives back what was written.
-/

namespace SlimTemplate.Markup.Element

variable {e : Element} {rest : Text}

/-- The identifier and the classes of an element, as they are written. -/
def marks (e : Element) : List Mark :=
  (e.id?.map (Mark.mk '#')).toList ++ e.classes.map (Mark.mk '.')

theorem stem_eq (e : Element) :
    e.stem = (if e.isNameless then [] else e.name) ++ e.marks.flatMap Mark.text := by
  have hclasses : (e.classes.map (Mark.mk '.')).flatMap Mark.text =
      e.classes.flatMap fun c => '.' :: c := by
    rw [List.flatMap_map]
    rfl
  rw [stem, marks, List.flatMap_append, hclasses]
  cases e.id? with
  | none => simp
  | some id => simp [Mark.text]

/-- An element whose names are made of the characters that heads are read from, and whose
attributes can be quoted. -/
structure HasScannedNames (e : Element) : Prop where
  name : ∃ c rest, e.name = c :: rest ∧ c.isAlpha = true ∧
    ∀ d ∈ rest, Head.isTagChar d = true
  id : ∀ id ∈ e.id?, ∀ c ∈ id, Head.isNameChar c = true
  classes : ∀ name ∈ e.classes, ∀ c ∈ name, Head.isNameChar c = true
  keys : ∀ pair ∈ e.otherAttributes,
    ∀ c ∈ pair.1, c ≠ '"' ∧ c ≠ '\'' ∧ c ≠ '[' ∧ c ≠ ']' ∧ c ≠ '\n'
  /-- No value needs both kinds of quotes. -/
  values : ∀ pair ∈ e.otherAttributes, '"' ∉ pair.2 ∨ '\'' ∉ pair.2

theorem isName_of_mem_marks (h : e.HasScannedNames) : ∀ mark ∈ e.marks, mark.IsName := by
  intro mark hmark
  rcases List.mem_append.1 hmark with hmark | hmark
  · obtain ⟨id, hid, rfl⟩ := Option.map_eq_some_iff.1 (Option.mem_toList.1 hmark)
    exact ⟨Or.inl rfl, (id?_eq_some hid).1, h.id id hid⟩
  · obtain ⟨name, hname, rfl⟩ := List.mem_map.1 hmark
    exact ⟨Or.inr rfl, ne_nil_of_mem_classes hname, h.classes name hname⟩

/-- No tag name goes on with the sign of a mark. -/
theorem isTagChar_eq_false_of_mem_head? (h : e.HasScannedNames) :
    ∀ c ∈ (e.marks.flatMap Mark.text).head?, Head.isTagChar c = false := by
  intro c hc
  cases hmarks : e.marks with
  | nil =>
    rw [hmarks] at hc
    cases hc
  | cons mark marks =>
    have hmark := isName_of_mem_marks h mark (by rw [hmarks]; exact List.mem_cons_self)
    rw [hmarks] at hc
    obtain rfl : mark.sign = c := Option.some.inj hc
    rcases hmark.sign with hsign | hsign
    · rw [hsign]
      decide
    · rw [hsign]
      decide

/-- A tag name is read to its end. -/
theorem scan?_name {name : Text} (h : ∃ c rest, name = c :: rest ∧ c.isAlpha = true ∧
    ∀ d ∈ rest, Head.isTagChar d = true) : Head.scan? name = some ⟨some name, [], none, []⟩ := by
  obtain ⟨c, rest, rfl, hc, hrest⟩ := h
  rw [Head.scan?_of_isAlpha hc, List.takeWhile_eq_self_iff.2 hrest,
    List.dropWhile_eq_nil_iff.2 hrest, Head.scanAfterName_eq, Head.readMarks_nil]
  rfl

/-- The names of an element are read to their end. -/
theorem scan?_stem (h : e.HasScannedNames) :
    Head.scan? e.stem =
      some ⟨if e.isNameless then none else some e.name, e.marks, none, []⟩ := by
  have hmarks := Head.readMarks_flatMap_text (isName_of_mem_marks h)
  cases hnameless : e.isNameless with
  | false =>
    rw [stem_eq, hnameless, if_neg Bool.false_ne_true, if_neg Bool.false_ne_true,
      Head.scan?_append (scan?_name h.name) (isTagChar_eq_false_of_mem_head? h), hmarks]
    rfl
  | true =>
    have hne : e.marks ≠ [] := by
      rw [isNameless, Bool.and_eq_true, Bool.or_eq_true] at hnameless
      rw [marks]
      rcases hnameless.2 with hid | hclasses
      · obtain ⟨id, hid⟩ := Option.isSome_iff_exists.1 hid
        simp [hid]
      · intro hnil
        rw [List.append_eq_nil_iff, List.map_eq_nil_iff] at hnil
        simp [hnil.2] at hclasses
    obtain ⟨mark, more, hcons⟩ := List.exists_cons_of_ne_nil hne
    have hsign := (isName_of_mem_marks h mark (by rw [hcons]; exact List.mem_cons_self)).sign
    have htext : e.marks.flatMap Mark.text =
        mark.sign :: (mark.name ++ more.flatMap Mark.text) := by
      rw [hcons]
      rfl
    rw [stem_eq, hnameless, if_pos rfl, if_pos rfl, List.nil_append, htext,
      Head.scan?_of_sign hsign, ← htext, Head.scanAfterName_eq, hmarks]
    rfl

/-- The attributes in brackets, if there are any. -/
def bracketed? (e : Element) : Option Text :=
  if e.otherAttributes.isEmpty then none else some (bracketed e.otherAttributes)

/-- Attributes in brackets are read to their closing bracket. -/
theorem readAttributes_bracketed_append (h : e.HasScannedNames)
    (hrest : ∀ c ∈ rest.head?, c ≠ '[') :
    Head.readAttributes (bracketed e.otherAttributes ++ rest) = (e.bracketed?, rest) := by
  rw [bracketed?]
  split
  · next hempty =>
    rw [bracketed, if_pos hempty, List.nil_append]
    cases rest with
    | nil => rfl
    | cons c rest => exact Head.readAttributes_of_not_bracket (hrest c rfl) rest
  · next hsome =>
    have hcarried : Head.IsCarried
        (Text.joinWith [' '] (e.otherAttributes.map attributeText)) := by
      refine Head.isCarried_joinWith fun part hpart => ?_
      obtain ⟨⟨key, value⟩, hmem, rfl⟩ := List.mem_map.1 hpart
      exact isCarried_attributeText (h.keys _ hmem) (h.values _ hmem)
    have htext : bracketed e.otherAttributes ++ rest =
        '[' :: Text.joinWith [' '] (e.otherAttributes.map attributeText) ++ ']' :: rest := by
      rw [bracketed, if_neg hsome, List.append_assoc, List.singleton_append]
    have hclosed := Head.readAttributes_closed hcarried rest
    rw [← htext] at hclosed
    -- The list that is read is what stands before the rest.
    have happend := Head.readAttributes_append (bracketed e.otherAttributes ++ rest)
    rw [hclosed, List.append_cancel_right_eq] at happend
    have hlist : (Head.readAttributes (bracketed e.otherAttributes ++ rest)).1 =
        some (bracketed e.otherAttributes) := by
      rw [htext, List.cons_append, Head.readAttributes_bracket, ← List.cons_append, ← htext]
        at happend ⊢
      exact congrArg some happend
    exact Prod.ext hlist hclosed

/-- An opening is taken apart into what it was written from. -/
theorem scan?_opening (h : e.HasScannedNames)
    (hrest : ∀ c ∈ rest.head?, Text.isBlank c = true) :
    Head.scan? (e.opening ++ rest) =
      some ⟨if e.isNameless then none else some e.name, e.marks, e.bracketed?, rest⟩ := by
  have hbracket : ∀ c ∈ rest.head?, c ≠ '[' := fun c hc =>
    (Head.ne_sign_of_isBlank (hrest c hc)).2.2
  -- No name goes on with a bracket or a blank.
  have hends : ∀ c ∈ (bracketed e.otherAttributes ++ rest).head?, Head.EndsName c := by
    intro c hc
    rcases bracketed_eq_nil_or_cons e.otherAttributes with hnil | ⟨list, hlist⟩
    · rw [hnil] at hc
      exact Head.endsName_of_isBlank (hrest c hc)
    · rw [hlist] at hc
      obtain rfl := Option.some.inj hc
      exact ⟨by decide, by decide, by decide⟩
  have hmarks : Head.readMarks (bracketed e.otherAttributes ++ rest) =
      ([], bracketed e.otherAttributes ++ rest) := by
    cases htext : bracketed e.otherAttributes ++ rest with
    | nil => exact Head.readMarks_nil
    | cons c text =>
      exact Head.readMarks_cons_of_endsName (hends c (by rw [htext]; rfl)) text
  rw [opening_eq_stem, List.append_assoc,
    Head.scan?_append (scan?_stem h) fun c hc => (hends c hc).1, hmarks,
    readAttributes_bracketed_append h hbracket, List.append_nil]

theorem not_isBlank_of_isTagChar {c : Char} (h : Head.isTagChar c = true) :
    Text.isBlank c = false ∧ c ≠ '[' := by
  constructor
  · by_contra hblank
    rw [Head.isTagChar_eq_false_of_isBlank (Bool.not_eq_false _ ▸ hblank)] at h
    cases h
  · rintro rfl
    exact absurd h (by decide)

/-- Such names hold no blank and no bracket. -/
theorem HasScannedNames.hasPlainNames (h : e.HasScannedNames) : e.HasPlainNames := by
  obtain ⟨c, rest, hname, hc, hrest⟩ := h.name
  have hnames : ∀ d ∈ e.name, Text.isBlank d = false ∧ d ≠ '[' := by
    intro d hd
    rw [hname] at hd
    rcases List.mem_cons.1 hd with rfl | hd
    · exact not_isBlank_of_isTagChar (by rw [Head.isTagChar, Char.isAlphanum, hc]; rfl)
    · exact not_isBlank_of_isTagChar (hrest d hd)
  refine ⟨⟨c, rest, hname, hc⟩, fun d hd => ?_, fun _ _ => h.keys _,
    fun _ _ => h.values _⟩
  rw [stem_eq] at hd
  rcases List.mem_append.1 hd with hd | hd
  · split at hd
    · cases hd
    · exact hnames d hd
  · obtain ⟨mark, hmark, hd⟩ := List.mem_flatMap.1 hd
    have hmarks := isName_of_mem_marks h mark hmark
    rcases List.mem_cons.1 hd with rfl | hd
    · rcases hmarks.sign with hsign | hsign
      · rw [hsign]
        decide
      · rw [hsign]
        decide
    · exact not_isBlank_of_isTagChar (Head.isTagChar_of_isNameChar (hmarks.name d hd))

/-! ## Heads of openings -/

section Given

variable {head : Head}

/-- The identifier among the marks of an element is its own. -/
theorem id?_of_marks_eq (h : head.marks = e.marks) : head.id? = e.id? := by
  rw [Head.id?, h, marks, List.find?_append]
  cases e.id? with
  | some id => rfl
  | none =>
    have hclasses : (e.classes.map (Mark.mk '.')).find? (fun mark => mark.sign = '#') = none := by
      rw [List.find?_eq_none]
      intro mark hmark
      obtain ⟨name, -, rfl⟩ := List.mem_map.1 hmark
      exact (by decide : ¬decide ('.' = '#') = true)
    exact congrArg (Option.map Mark.name) hclasses

/-- The classes among the marks of an element are its own. -/
theorem classes_of_marks_eq (h : head.marks = e.marks) : head.classes = e.classes := by
  have hid : (e.id?.map (Mark.mk '#')).toList.filter (fun mark => mark.sign = '.') = [] := by
    cases e.id? <;> rfl
  have hclasses : (e.classes.map (Mark.mk '.')).filter (fun mark => mark.sign = '.') =
      e.classes.map (Mark.mk '.') := by
    rw [List.filter_eq_self]
    intro mark hmark
    obtain ⟨name, -, rfl⟩ := List.mem_map.1 hmark
    rfl
  rw [Head.classes, h, marks, List.filter_append, hid, hclasses, List.nil_append, List.map_map]
  exact List.map_id e.classes

end Given

theorem isNameless_iff :
    e.isNameless = true ↔ e.name = defaultTag ∧ (e.id? ≠ none ∨ e.classes ≠ []) := by
  rw [isNameless, Bool.and_eq_true, Bool.or_eq_true, decide_eq_true_eq, Option.isSome_iff_ne_none,
    Bool.not_eq_true', List.isEmpty_eq_false_iff]

/-- The head that is read from an opening ends where the opening does, whatever stands behind a
blank, and gives back what the opening was written from. -/
theorem exists_head_opening (h : e.HasScannedNames)
    (hrest : ∀ c ∈ rest.head?, Text.isBlank c = true) :
    ∃ head, Head.scan? (e.opening ++ rest) = some head ∧
      head.text = e.opening ∧ head.remainder = rest ∧
      head.element = (if e.name = defaultTag ∧ (e.id? ≠ none ∨ e.classes ≠ []) then none
        else some e.name) ∧
      head.id? = e.id? ∧ head.classes = e.classes ∧
      head.attributes = (if e.otherAttributes = [] then none
        else some (bracketed e.otherAttributes)) := by
  have hscan := scan?_opening h hrest
  refine ⟨_, hscan, ?_, rfl, ?_, id?_of_marks_eq rfl, classes_of_marks_eq rfl, ?_⟩
  · exact List.append_cancel_right (Head.text_append_remainder hscan)
  · exact if_congr isNameless_iff rfl rfl
  · exact if_congr List.isEmpty_iff rfl rfl

/-- An element without a written name, with values that need either kind of quotes and hold
brackets and a line feed. -/
def panel : Element :=
  ⟨"div".toList, [("id".toList, " main ".toList), ("title".toList, "say \"]\"\n[x".toList),
    ("class".toList, " wide\tlow ".toList), ("hidden".toList, []),
    ("alt".toList, "it's".toList)]⟩

/-- Its opening is read back in front of a text that begins with a bracket. -/
theorem exists_head_opening_panel :
    ∃ head, Head.scan? (panel.opening ++ " [x='".toList) = some head ∧
      head.text = "#main.wide.low[title='say \"]\" [x' hidden alt=\"it's\"]".toList ∧
      head.remainder = " [x='".toList ∧ head.element = none ∧
      head.id? = some "main".toList ∧ head.classes = ["wide".toList, "low".toList] := by
  have hidChars : ∀ id ∈ panel.id?, ∀ c ∈ id, Head.isNameChar c = true := by
    intro id hid
    obtain rfl : "main".toList = id := Option.some.inj hid
    exact List.all_eq_true.1 (by decide)
  have hclassChars : ∀ name ∈ panel.classes, name.all Head.isNameChar = true := by decide
  have hkeyChars : ∀ pair ∈ panel.otherAttributes, (pair.1.all fun c =>
      decide (c ≠ '"' ∧ c ≠ '\'' ∧ c ≠ '[' ∧ c ≠ ']' ∧ c ≠ '\n')) = true := by
    decide
  have h : panel.HasScannedNames :=
    { name := ⟨'d', "iv".toList, rfl, by decide, List.all_eq_true.1 (by decide)⟩
      id := hidChars
      classes := fun name hname => List.all_eq_true.1 (hclassChars name hname)
      keys := fun pair hpair => Text.forall_of_all (hkeyChars pair hpair)
      values := by decide }
  have hrest : ∀ c ∈ " [x='".toList.head?, Text.isBlank c = true := by
    intro c hc
    obtain rfl : ' ' = c := Option.some.inj hc
    decide
  obtain ⟨head, hscan, htext, hremainder, helement, hid, hclasses, -⟩ := exists_head_opening h hrest
  exact ⟨head, hscan, htext.trans (by decide), hremainder, helement.trans (by decide),
    hid.trans (by decide), hclasses.trans (by decide)⟩

end SlimTemplate.Markup.Element
