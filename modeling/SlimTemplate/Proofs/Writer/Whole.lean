import SlimTemplate.Proofs.Line.Head
import SlimTemplate.Proofs.Writer.Opening
import SlimTemplate.Proofs.Writer.Row

/-!
# Openings read as one head

What is known of the opening of an element that is read as one head, and elements whose openings
are: those whose names hold no blank and no bracket, and whose attributes are quoted with quotes
that do not occur in them.

## Main definitions

* `Markup.Element.stem`: the opening without the attributes in brackets.
* `Markup.Element.HasPlainNames`: an element with such names and attributes.

## Main statements

* `Markup.Element.scan?_of_isWhole`: the head of an opening is read with anything behind a blank.
* `Markup.Element.isWhole_of_hasPlainNames`: such an element has an opening that is read as one
  head.
-/

namespace SlimTemplate

namespace Head

/-! ## Heads of a stem and what follows it -/

/-- What a head leaves of a line is what it leaves of the names, and what the attributes leave
behind them. -/
theorem remainder_scan?_append {c : Char} (hc : c.isAlpha = true ∨ c = '#' ∨ c = '.')
    (text : Text) :
    ∃ left, left ⊆ c :: text ∧ ∀ d, EndsName d → ∀ rest,
      (scan? (c :: text ++ d :: rest)).map (·.remainder) =
        some (readAttributes (left ++ d :: rest)).2 := by
  rcases hc with hc | hc
  · refine ⟨(readMarks (text.dropWhile isTagChar)).2, ?_, fun d hd rest => ?_⟩
    · have hsuffix := flatMap_text_readMarks (text.dropWhile isTagChar)
      intro b hb
      refine List.mem_cons_of_mem c ((List.dropWhile_sublist isTagChar).mem ?_)
      rw [← hsuffix]
      exact List.mem_append_right _ hb
    · rw [List.cons_append, scan?_of_isAlpha hc, Text.dropWhile_append_cons_of_neg hd.1,
        Option.map_some, scanAfterName_eq, readMarks_append_cons hd]
  · refine ⟨(readMarks (c :: text)).2, ?_, fun d hd rest => ?_⟩
    · have hsuffix := flatMap_text_readMarks (c :: text)
      intro b hb
      rw [← hsuffix]
      exact List.mem_append_right _ hb
    · rw [List.cons_append, scan?_of_sign hc, ← List.cons_append, Option.map_some,
        scanAfterName_eq, readMarks_append_cons hd]

/-! ## Closed lists of attributes -/

/-- A text after which a bracket list goes on as before it. -/
def IsCarried (part : Text) : Prop :=
  ∀ text, readBrackets 1 none (part ++ text) =
    (part ++ (readBrackets 1 none text).1, (readBrackets 1 none text).2)

namespace IsCarried

theorem nil : IsCarried [] :=
  fun _ => rfl

theorem append {a b : Text} (ha : IsCarried a) (hb : IsCarried b) : IsCarried (a ++ b) := by
  intro text
  rw [List.append_assoc, ha, hb, List.append_assoc]

end IsCarried

/-- A text without quotes and brackets leaves a list as it was. -/
theorem isCarried_of_plain {text : Text}
    (h : ∀ c ∈ text, c ≠ '"' ∧ c ≠ '\'' ∧ c ≠ '[' ∧ c ≠ ']') : IsCarried text := by
  induction text with
  | nil => exact IsCarried.nil
  | cons c text ih =>
    obtain ⟨⟨hdouble, hsingle, hopen, hclose⟩, htext⟩ := List.forall_mem_cons.1 h
    intro rest
    rw [List.cons_append, readBrackets]
    simp [hdouble, hsingle, hopen, hclose, ih htext rest]

theorem readBrackets_in_quotes (q c : Char) (text : Text) :
    readBrackets 1 (some q) (c :: text) =
      (c :: (readBrackets 1 (if c = q then none else some q) text).1,
        (readBrackets 1 (if c = q then none else some q) text).2) :=
  rfl

/-- Quotes are closed by the first quote of their kind. -/
theorem readBrackets_quoted {q : Char} {value : Text} (h : q ∉ value) (text : Text) :
    readBrackets 1 (some q) (value ++ q :: text) =
      (value ++ q :: (readBrackets 1 none text).1, (readBrackets 1 none text).2) := by
  induction value with
  | nil => rw [List.nil_append, readBrackets_in_quotes, if_pos rfl, List.nil_append]
  | cons c value ih =>
    obtain ⟨hc, hvalue⟩ := not_or.1 (mt List.mem_cons.2 h)
    rw [List.cons_append, readBrackets_in_quotes, if_neg (Ne.symm hc), ih hvalue,
      List.cons_append]

theorem isCarried_quoted {q : Char} (hq : q = '"' ∨ q = '\'') {value : Text} (h : q ∉ value) :
    IsCarried (q :: value ++ [q]) := by
  intro text
  have hopen : readBrackets 1 none (q :: (value ++ q :: text)) =
      (q :: (readBrackets 1 (some q) (value ++ q :: text)).1,
        (readBrackets 1 (some q) (value ++ q :: text)).2) := by
    rw [readBrackets]
    simp [hq]
  rw [List.append_assoc, List.singleton_append, List.cons_append, hopen, readBrackets_quoted h]
  simp

theorem isCarried_joinWith {parts : List Text} (h : ∀ part ∈ parts, IsCarried part) :
    IsCarried (Text.joinWith [' '] parts) := by
  induction parts with
  | nil => exact IsCarried.nil
  | cons part parts ih =>
    obtain ⟨hpart, hparts⟩ := List.forall_mem_cons.1 h
    cases parts with
    | nil => exact hpart
    | cons next parts =>
      rw [Text.joinWith_cons_cons]
      have hspace : IsCarried [' '] := isCarried_of_plain (List.forall_mem_singleton.2 (by decide))
      exact (hpart.append hspace).append (ih hparts)

/-- A list of attributes ends at the bracket that closes it. -/
theorem readAttributes_closed {inner : Text} (h : IsCarried inner) (rest : Text) :
    (readAttributes ('[' :: inner ++ ']' :: rest)).2 = rest := by
  have hopen : readBrackets 0 none ('[' :: (inner ++ ']' :: rest)) =
      ('[' :: (readBrackets 1 none (inner ++ ']' :: rest)).1,
        (readBrackets 1 none (inner ++ ']' :: rest)).2) := by
    simp [readBrackets]
  rw [List.cons_append, readAttributes_bracket, hopen, h]
  simp [readBrackets]

end Head

namespace Markup.Element

variable {e : Element}

/-- The opening of an element that is read as one head is read so with anything behind a blank. -/
theorem scan?_of_isWhole (h : e.isWhole = true) :
    ∃ head, Head.scan? e.opening = some head ∧
      (∀ c ∈ head.remainder.head?, Text.isBlank c = false) ∧
      ∀ text, Head.scan? (e.opening ++ ' ' :: text) =
        some { head with remainder := head.remainder ++ ' ' :: text } := by
  rw [isWhole, Bool.and_eq_true, Bool.and_eq_true, decide_eq_true_eq, Option.any_eq_true] at h
  obtain ⟨⟨htrim, -⟩, again, hscan, hagain⟩ := h
  rw [Bool.and_eq_true, Bool.not_eq_true', List.isEmpty_eq_false_iff] at hagain
  obtain ⟨head, hhead, hbehind⟩ :=
    Head.scan?_append_of_closed (by decide) hscan hagain.1
  refine ⟨head, hhead, ?_, hbehind⟩
  intro c hc
  by_contra hblank
  rw [Bool.not_eq_false] at hblank
  obtain ⟨rest, hremainder⟩ := List.head?_eq_some_iff.1 hc
  -- What stands behind the head is no text, so it is blank up to the end of the opening.
  obtain rfl := Option.some.inj ((hbehind []).symm.trans hscan)
  have hblanks : ∀ d ∈ head.remainder ++ [' '], Text.isBlank d = true := by
    refine Text.trim_eq_nil_iff.1 ?_
    have hnone := hagain.2
    rw [Head.textBehind?, hremainder, List.cons_append] at hnone
    simpa [hblank, hremainder] using hnone
  have happend := Head.text_append_remainder hhead
  have hne : head.remainder ≠ [] := by simp [hremainder]
  have hlast := List.getLast?_eq_some_getLast hne
  have hend : (Text.trim e.opening).getLast? = some (head.remainder.getLast hne) := by
    rw [htrim, ← happend, List.getLast?_append_of_ne_nil _ hne, hlast]
  have hnot := Text.getLast?_trim_not_isBlank hend
  rw [hblanks _ (List.mem_append_left _ (List.getLast_mem hne))] at hnot
  cases hnot

theorem trim_opening_of_isWhole (h : e.isWhole = true) : Text.trim e.opening = e.opening := by
  rw [isWhole, Bool.and_eq_true, Bool.and_eq_true, decide_eq_true_eq] at h
  exact h.1.1

theorem lineFeed_not_mem_opening_of_isWhole (h : e.isWhole = true) : '\n' ∉ e.opening := by
  rw [isWhole, Bool.and_eq_true, Bool.and_eq_true] at h
  simpa using h.1.2

theorem opening_eq_cons_of_isWhole (h : e.isWhole = true) :
    ∃ c rest, e.opening = c :: rest ∧ Text.isBlank c = false ∧ c ≠ '/' := by
  obtain ⟨head, hscan, -⟩ := scan?_of_isWhole h
  obtain ⟨c, rest, hopening, hc⟩ := Head.scan?_eq_some hscan
  refine ⟨c, rest, hopening, ?_⟩
  rcases hc with hc | rfl | rfl
  · refine ⟨Text.isBlank_eq_false_of_isAlpha hc, ?_⟩
    rintro rfl
    exact absurd hc (by decide)
  · decide
  · decide

/-! ## Plain names -/

/-- The opening of an element without the attributes in brackets. -/
def stem (e : Element) : Text :=
  (if e.isNameless then [] else e.name) ++
    (match e.id? with
      | some id => '#' :: id
      | none => []) ++
    e.classes.flatMap fun c => '.' :: c

theorem opening_eq_stem (e : Element) : e.opening = e.stem ++ bracketed e.otherAttributes :=
  rfl

/-- An element whose names hold no blank and no bracket, and whose attributes can be quoted. -/
structure HasPlainNames (e : Element) : Prop where
  name : ∃ c rest, e.name = c :: rest ∧ c.isAlpha = true
  /-- The name, the identifier and the classes. -/
  stem : ∀ c ∈ e.stem, Text.isBlank c = false ∧ c ≠ '['
  keys : ∀ key value, (key, value) ∈ e.otherAttributes →
    ∀ c ∈ key, c ≠ '"' ∧ c ≠ '\'' ∧ c ≠ '[' ∧ c ≠ ']' ∧ c ≠ '\n'
  /-- No value needs both kinds of quotes. -/
  values : ∀ key value, (key, value) ∈ e.otherAttributes → '"' ∉ value ∨ '\'' ∉ value

/-- Line feeds become spaces, which are no quotes. -/
theorem mem_of_mem_map_lineFeed {q : Char} (hq : q ≠ ' ') {value : Text}
    (h : q ∈ value.map fun c => if c = '\n' then ' ' else c) : q ∈ value := by
  obtain ⟨c, hc, heq⟩ := List.mem_map.1 h
  split at heq
  · exact absurd heq.symm hq
  · exact heq ▸ hc

theorem isCarried_attributeText {key value : Text}
    (hkey : ∀ c ∈ key, c ≠ '"' ∧ c ≠ '\'' ∧ c ≠ '[' ∧ c ≠ ']' ∧ c ≠ '\n')
    (hvalue : '"' ∉ value ∨ '\'' ∉ value) : Head.IsCarried (attributeText (key, value)) := by
  have hplain : Head.IsCarried key := by
    refine Head.isCarried_of_plain fun c hc => ?_
    obtain ⟨hdouble, hsingle, hopen, hclose, -⟩ := hkey c hc
    exact ⟨hdouble, hsingle, hopen, hclose⟩
  have hequals : Head.IsCarried ['='] :=
    Head.isCarried_of_plain (List.forall_mem_singleton.2 (by decide))
  simp only [attributeText]
  split
  · exact hplain
  · split
    · next hdouble =>
      have hmem := mem_of_mem_map_lineFeed (by decide) (List.contains_iff_mem.1 hdouble)
      have hsingle := hvalue.resolve_left (not_not.2 hmem)
      have hquoted := hequals.append (Head.isCarried_quoted (Or.inr rfl)
        (mt (mem_of_mem_map_lineFeed (by decide)) hsingle))
      simpa using hplain.append hquoted
    · next hdouble =>
      have hquoted := hequals.append (Head.isCarried_quoted (Or.inl rfl)
        (mt List.contains_iff_mem.2 hdouble))
      simpa using hplain.append hquoted

theorem bracketed_eq_nil_or_cons (attributes : List Attribute) :
    bracketed attributes = [] ∨ ∃ list, bracketed attributes = '[' :: list := by
  rw [bracketed]
  split
  · exact Or.inl rfl
  · exact Or.inr ⟨_, rfl⟩

theorem stem_eq_cons (h : e.HasPlainNames) :
    ∃ c rest, e.stem = c :: rest ∧ (c.isAlpha = true ∨ c = '#' ∨ c = '.') := by
  cases hnameless : e.isNameless with
  | false =>
    obtain ⟨c, rest, hname, hc⟩ := h.name
    exact ⟨c, _, by rw [stem, hnameless, hname]; rfl, Or.inl hc⟩
  | true =>
    obtain ⟨c, rest, hmarking, hc⟩ := marking_eq_cons hnameless
    have hstem : e.stem ++ bracketed e.otherAttributes = c :: rest := by
      rw [← hmarking, ← opening_eq_stem, opening_eq, hnameless]
      rfl
    -- What begins with the sign of a mark does not begin with a bracket.
    cases hmarks : e.stem with
    | nil =>
      rw [hmarks, List.nil_append] at hstem
      rcases bracketed_eq_nil_or_cons e.otherAttributes with hnil | ⟨list, hlist⟩
      · rw [hnil] at hstem
        cases hstem
      · rw [hlist] at hstem
        obtain ⟨rfl, -⟩ := List.cons.inj hstem
        exact absurd hc (by decide)
    | cons d more =>
      rw [hmarks] at hstem
      obtain ⟨rfl, -⟩ := List.cons.inj hstem
      exact ⟨d, more, rfl, Or.inr hc⟩

theorem getLast?_opening (h : e.HasPlainNames) {c : Char}
    (hc : e.opening.getLast? = some c) : Text.isBlank c = false := by
  rw [opening_eq_stem, bracketed] at hc
  split at hc
  · rw [List.append_nil] at hc
    exact (h.stem c (List.mem_of_getLast? hc)).1
  · rw [← List.append_assoc, List.getLast?_concat] at hc
    rw [← Option.some.inj hc]
    decide

theorem trim_opening (h : e.HasPlainNames) : Text.trim e.opening = e.opening := by
  obtain ⟨c, rest, hstem, -⟩ := stem_eq_cons h
  refine Text.trim_eq_self ?_ fun d hd => getLast?_opening h hd
  intro d hd
  rw [opening_eq_stem, hstem, List.cons_append, List.head?_cons] at hd
  rw [← Option.some.inj hd]
  exact (h.stem c (by rw [hstem]; exact List.mem_cons_self)).1

theorem lineFeed_not_mem_opening_of_hasPlainNames (h : e.HasPlainNames) : '\n' ∉ e.opening := by
  rw [opening_eq_stem, List.mem_append, not_or]
  constructor
  · intro hmem
    exact absurd (h.stem _ hmem).1 (by decide)
  · refine lineFeed_not_mem_bracketed fun key value hmem hlf => ?_
    exact (h.keys key value hmem _ hlf).2.2.2.2 rfl

theorem readAttributes_bracketed (h : e.HasPlainNames) :
    (Head.readAttributes (bracketed e.otherAttributes ++ [' '])).2 = [' '] := by
  rw [bracketed]
  split
  · rfl
  · rw [List.append_assoc]
    refine Head.readAttributes_closed (Head.isCarried_joinWith fun part hpart => ?_) [' ']
    obtain ⟨⟨key, value⟩, hmem, rfl⟩ := List.mem_map.1 hpart
    exact isCarried_attributeText (h.keys key value hmem) (h.values key value hmem)

theorem exists_endsName (e : Element) :
    ∃ d more, bracketed e.otherAttributes ++ [' '] = d :: more ∧ Head.EndsName d := by
  rcases bracketed_eq_nil_or_cons e.otherAttributes with hnil | ⟨list, hlist⟩
  · exact ⟨' ', [], by rw [hnil]; rfl, by decide, by decide, by decide⟩
  · exact ⟨'[', list ++ [' '], by rw [hlist]; rfl, by decide, by decide, by decide⟩

/-- What a head leaves of an opening and a blank is that blank, or it begins with a character of
the names. -/
theorem remainder_scan?_opening (h : e.HasPlainNames) :
    ∃ head, Head.scan? (e.opening ++ [' ']) = some head ∧
      (head.remainder = [' '] ∨ ∃ c rest, head.remainder = c :: rest ∧ c ∈ e.stem) := by
  obtain ⟨c, text, hstem, hc⟩ := stem_eq_cons h
  obtain ⟨left, hleft, hremainder⟩ := Head.remainder_scan?_append hc text
  obtain ⟨d, more, htail, hd⟩ := exists_endsName e
  have hopening : e.opening ++ [' '] = c :: text ++ d :: more := by
    rw [opening_eq_stem, hstem, List.append_assoc, htail]
  obtain ⟨head, hscan, hhead⟩ := Option.map_eq_some_iff.1 (hremainder d hd more)
  rw [hopening]
  refine ⟨head, hscan, ?_⟩
  cases left with
  | nil =>
    left
    rw [hhead, List.nil_append, ← htail, readAttributes_bracketed h]
  | cons b left =>
    have hb : b ∈ e.stem := hstem ▸ hleft List.mem_cons_self
    right
    rw [hhead, List.cons_append, Head.readAttributes_of_not_bracket (h.stem b hb).2]
    exact ⟨b, _, rfl, hb⟩

/-- An element with plain names has an opening that is read as one head. -/
theorem isWhole_of_hasPlainNames (h : e.HasPlainNames) : e.isWhole = true := by
  obtain ⟨head, hscan, hremainder⟩ := remainder_scan?_opening h
  have hlf : e.opening.contains '\n' = false := by
    simpa using lineFeed_not_mem_opening_of_hasPlainNames h
  have hbehind : head.remainder.isEmpty = false ∧ head.textBehind? = none := by
    rw [Head.textBehind?]
    rcases hremainder with hblank | ⟨c, rest, hcons, hc⟩
    · rw [hblank]
      exact ⟨rfl, rfl⟩
    · rw [hcons]
      simp [(h.stem c hc).1]
  rw [isWhole, trim_opening h, hlf, hscan, Option.any_some, hbehind.1, hbehind.2]
  simp

end Markup.Element

end SlimTemplate
