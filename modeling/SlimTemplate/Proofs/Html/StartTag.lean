import SlimTemplate.Markup.Html
import SlimTemplate.Proofs.Directive.Piecewise
import SlimTemplate.Proofs.Html.Names

/-!
# Start tags as they are written

A start tag is written with attributes whose values stand in quotes, and a value may hold
directives. As long as no directive has the quote of its value, the passes over directives, which
skip over whole directives, and the reader of HTML, which knows of none, agree on where each value
ends: the tag is read with exactly the values between its quotes.

## Main definitions

* `Html.WrittenAttribute`, `Html.WrittenTag`: a start tag as it is written.
* `Html.WrittenAttribute.IsReadable`, `Html.WrittenTag.IsReadable`: what may stand in its parts.
* `Html.WrittenTag.tag`: the tag that is meant.

## Main statements

* `Html.WrittenTag.toMarkup_source`: the passes leave a start tag as it is.
* `Html.WrittenTag.scan_source`: a start tag is read with its attributes as written.
-/

namespace SlimTemplate.Html

open Directive (TagPart ClosesTag)
open Markup (Attribute)

/-- An attribute as it is written: white space, its key, and its value in quotes. -/
structure WrittenAttribute where
  gap : Text
  key : Text
  quote : Char
  value : List TagPart

/-- A start tag as it is written, with the white space before its end. -/
structure WrittenTag where
  first : Char
  more : Text
  attributes : List WrittenAttribute
  gap : Text
  selfClosing : Bool

namespace WrittenAttribute

/-- The parts of an attribute. -/
def parts (a : WrittenAttribute) : List TagPart :=
  a.gap.map .char ++ (a.key.map .char ++
    .char '=' :: .char a.quote :: (a.value ++ [.char a.quote]))

/-- The text between the quotes. -/
def content (a : WrittenAttribute) : Text :=
  a.value.flatMap TagPart.source

/-- An attribute as the text that is written. -/
def source (a : WrittenAttribute) : Text :=
  a.gap ++ (a.key ++ '=' :: a.quote :: (a.content ++ [a.quote]))

/-- The attribute that is meant: keys are read in small letters, and the value is the text between
the quotes. -/
def meant (a : WrittenAttribute) : Attribute :=
  (Text.toAsciiLower a.key, a.content)

end WrittenAttribute

/-- White space that a reader keeps as it is. -/
def IsGap (gap : Text) : Prop :=
  ∀ c ∈ gap, isSpace c = true ∧ c ≠ '\r'

/-- What may be the key of an attribute. -/
def IsKey (key : Text) : Prop :=
  ∀ c ∈ key, endsAttributeName c = false ∧ c ≠ '<' ∧ c ≠ '\x00'

/-- What may follow the first letter of a tag's name. -/
def IsNameRest (more : Text) : Prop :=
  ∀ c ∈ more, endsName c = false ∧ c ≠ '=' ∧ c ≠ '<' ∧ c ≠ '\x00'

/-- A character that stands for itself in a value between these quotes. -/
def IsValueChar (quote c : Char) : Prop :=
  c ≠ quote ∧ c ≠ '&' ∧ c ≠ '\r' ∧ c ≠ '\x00'

instance (quote c : Char) : Decidable (IsValueChar quote c) :=
  inferInstanceAs (Decidable (c ≠ quote ∧ c ≠ '&' ∧ c ≠ '\r' ∧ c ≠ '\x00'))

/-- What may stand in a value between these quotes: characters, and directives that do not have
the quote. -/
def IsValuePart (quote : Char) : TagPart → Prop
  | .char c => c ≠ '<' ∧ IsValueChar quote c
  | .directive code => ¬['%', '>'] <:+: code ∧ ∀ c ∈ code, IsValueChar quote c

-- The instances go through the characters of the text, not through all characters.
instance (gap : Text) : Decidable (IsGap gap) :=
  List.decidableBAll (fun c => isSpace c = true ∧ c ≠ '\r') gap

instance (key : Text) : Decidable (IsKey key) :=
  List.decidableBAll (fun c => endsAttributeName c = false ∧ c ≠ '<' ∧ c ≠ '\x00') key

instance (more : Text) : Decidable (IsNameRest more) :=
  List.decidableBAll (fun c => endsName c = false ∧ c ≠ '=' ∧ c ≠ '<' ∧ c ≠ '\x00') more

instance (quote : Char) : (part : TagPart) → Decidable (IsValuePart quote part)
  | .char c => inferInstanceAs (Decidable (c ≠ '<' ∧ IsValueChar quote c))
  | .directive code =>
    have := List.decidableBAll (IsValueChar quote) code
    inferInstanceAs (Decidable (¬['%', '>'] <:+: code ∧ ∀ c ∈ code, IsValueChar quote c))

/-- Whether the parts of an attribute are what they are called. -/
structure WrittenAttribute.IsReadable (a : WrittenAttribute) : Prop where
  gap_ne_nil : a.gap ≠ []
  gap : IsGap a.gap
  key_ne_nil : a.key ≠ []
  key : IsKey a.key
  quote : a.quote = '"' ∨ a.quote = '\''
  value : ∀ part ∈ a.value, IsValuePart a.quote part

namespace WrittenTag

/-- The name as it is written. -/
def name (t : WrittenTag) : Text :=
  t.first :: t.more

/-- How a tag ends. -/
def ending (t : WrittenTag) : Text :=
  t.gap ++ (if t.selfClosing then ['/', '>'] else ['>'])

/-- The parts of a tag after the first character of its name. -/
def parts (t : WrittenTag) : List TagPart :=
  t.more.map .char ++ (t.attributes.flatMap WrittenAttribute.parts ++ t.ending.map .char)

/-- A tag as a piece of a text. -/
def piece (t : WrittenTag) : Directive.Piece :=
  .tag t.first t.parts

/-- A tag as the text that is written. -/
def source (t : WrittenTag) : Text :=
  '<' :: t.name ++ (t.attributes.flatMap WrittenAttribute.source ++ t.ending)

/-- The tag that is meant. -/
def tag (t : WrittenTag) : Tag :=
  ⟨.start, String.ofList (Text.toAsciiLower t.name), t.attributes.map WrittenAttribute.meant,
    t.selfClosing⟩

/-- Whether the parts of a tag are what they are called, and no two keys are the same. -/
structure IsReadable (t : WrittenTag) : Prop where
  first : t.first.isAlpha = true
  more : IsNameRest t.more
  attributes : ∀ a ∈ t.attributes, a.IsReadable
  nodup : (t.attributes.map fun a => Text.toAsciiLower a.key).Nodup
  gap : IsGap t.gap

end WrittenTag

variable {a : WrittenAttribute} {t : WrittenTag}

/-! ## The pieces of a tag -/

theorem flatMap_source_map_char (text : Text) :
    (text.map TagPart.char).flatMap TagPart.source = text := by
  rw [List.flatMap_map]
  exact List.flatMap_singleton' text

theorem WrittenAttribute.flatMap_source_parts (a : WrittenAttribute) :
    a.parts.flatMap TagPart.source = a.source := by
  simp only [parts, source, content, List.flatMap_append, flatMap_source_map_char,
    List.flatMap_cons, List.flatMap_nil, TagPart.source, List.singleton_append, List.append_nil]

theorem WrittenTag.piece_source (t : WrittenTag) : t.piece.source = t.source := by
  have hattributes : (t.attributes.flatMap WrittenAttribute.parts).flatMap TagPart.source =
      t.attributes.flatMap WrittenAttribute.source := by
    rw [List.flatMap_assoc]
    exact List.flatMap_congr fun a _ => a.flatMap_source_parts
  simp only [piece, Directive.Piece.source, parts, source, name, List.flatMap_append,
    flatMap_source_map_char, hattributes, List.cons_append]

/-- Behind characters that neither open a value nor end a tag, a tag goes on. -/
theorem closesTag_map_char_append {text : Text} {parts : List TagPart}
    (htext : ∀ c ∈ text, c ≠ '<' ∧ c ≠ '>' ∧ c ≠ '=') (h : ClosesTag none false parts) :
    ClosesTag none false (text.map .char ++ parts) := by
  induction text with
  | nil => exact h
  | cons c text ih =>
    obtain ⟨⟨hlt, hgt, hequals⟩, hrest⟩ := List.forall_mem_cons.1 htext
    refine ⟨fun hc => absurd hc hlt, ?_⟩
    simp only [Bool.and_false, Bool.false_eq_true, if_false, if_neg hgt, hequals, decide_false]
    exact ih hrest

/-- A value runs to its closing quote, over the directives in it. -/
theorem closesTag_value_append {quote : Char} {value parts : List TagPart} (afterEquals : Bool)
    (hquote : quote = '"' ∨ quote = '\'') (hvalue : ∀ part ∈ value, IsValuePart quote part)
    (h : ClosesTag none false parts) :
    ClosesTag (some quote) afterEquals (value ++ .char quote :: parts) := by
  induction value generalizing afterEquals with
  | nil =>
    have hne : quote ≠ '<' ∧ quote ≠ '=' := by rcases hquote with rfl | rfl <;> decide
    refine ⟨fun hc => absurd hc hne.1, ?_⟩
    rw [if_pos rfl, decide_eq_false hne.2]
    exact h
  | cons part value ih =>
    obtain ⟨hpart, hrest⟩ := List.forall_mem_cons.1 hvalue
    cases part with
    | directive code => exact ⟨hpart.1, ih false hrest⟩
    | char c =>
      refine ⟨fun hc => absurd hc hpart.1, ?_⟩
      rw [if_neg hpart.2.1]
      exact ih _ hrest

theorem IsGap.not_mem {gap : Text} (h : IsGap gap) {c : Char} (hc : isSpace c = false) :
    c ∉ gap := by
  intro hmem
  rw [(h c hmem).1] at hc
  cases hc

theorem WrittenAttribute.IsReadable.closesTag (h : a.IsReadable) {parts : List TagPart}
    (hparts : ClosesTag none false parts) : ClosesTag none false (a.parts ++ parts) := by
  have hgap : ∀ c ∈ a.gap, c ≠ '<' ∧ c ≠ '>' ∧ c ≠ '=' := fun c hc =>
    ⟨fun heq => h.gap.not_mem (c := '<') (by decide) (heq ▸ hc),
      fun heq => h.gap.not_mem (c := '>') (by decide) (heq ▸ hc),
      fun heq => h.gap.not_mem (c := '=') (by decide) (heq ▸ hc)⟩
  have hkey : ∀ c ∈ a.key, c ≠ '<' ∧ c ≠ '>' ∧ c ≠ '=' := by
    intro c hc
    obtain ⟨hends, hlt, -⟩ := h.key c hc
    refine ⟨hlt, ?_, ?_⟩ <;> rintro rfl <;> exact absurd hends (by decide)
  have hvalue : ClosesTag none true (.char a.quote :: (a.value ++ .char a.quote :: parts)) := by
    have hopens : ((a.quote = '"' || a.quote = '\'') && true) = true := by
      simpa using h.quote
    refine ⟨fun hc => ?_, ?_⟩
    · rcases h.quote with heq | heq <;> exact absurd (heq ▸ hc) (by decide)
    · rw [if_pos hopens]
      exact closesTag_value_append false h.quote h.value hparts
  have hequals : ClosesTag none false
      (.char '=' :: .char a.quote :: (a.value ++ .char a.quote :: parts)) :=
    ⟨fun hc => absurd hc (by decide), hvalue⟩
  have hall := closesTag_map_char_append hgap (closesTag_map_char_append hkey hequals)
  simpa only [WrittenAttribute.parts, List.append_assoc, List.cons_append, List.nil_append]
    using hall

namespace WrittenTag.IsReadable

variable (h : t.IsReadable)
include h

theorem closesTag : ClosesTag none false t.parts := by
  have hgap : ∀ c ∈ t.gap, c ≠ '<' ∧ c ≠ '>' ∧ c ≠ '=' := fun c hc =>
    ⟨fun heq => h.gap.not_mem (c := '<') (by decide) (heq ▸ hc),
      fun heq => h.gap.not_mem (c := '>') (by decide) (heq ▸ hc),
      fun heq => h.gap.not_mem (c := '=') (by decide) (heq ▸ hc)⟩
  have hending : ClosesTag none false (t.ending.map .char) := by
    have hlast : ClosesTag none false
        ((if t.selfClosing then ['/', '>'] else ['>'] : Text).map .char) := by
      split <;> decide
    rw [ending, List.map_append]
    exact closesTag_map_char_append hgap hlast
  have hattributes : ClosesTag none false
      (t.attributes.flatMap WrittenAttribute.parts ++ t.ending.map .char) := by
    have hall := h.attributes
    generalize t.attributes = attributes at hall ⊢
    induction attributes with
    | nil => exact hending
    | cons a more ih =>
      obtain ⟨ha, hmore⟩ := List.forall_mem_cons.1 hall
      rw [List.flatMap_cons, List.append_assoc]
      exact ha.closesTag (ih hmore)
  refine closesTag_map_char_append (fun c hc => ?_) hattributes
  obtain ⟨hends, hequals, hlt, -⟩ := h.more c hc
  refine ⟨hlt, ?_, hequals⟩
  rintro rfl
  exact absurd hends (by decide)

theorem isWellFormed : t.piece.IsWellFormed :=
  ⟨by rw [h.first, Bool.true_or], h.closesTag⟩

/-- The passes over directives leave a start tag as it is. -/
theorem toMarkup_source (hfree : ¬Directive.placeholderStart <:+: t.source)
    (hsize : t.source.length ≤ Text.maxSize) : Directive.toMarkup t.source = t.source := by
  have hpieces : [t.piece].flatMap Directive.Piece.source = t.source := by
    rw [List.flatMap_singleton, t.piece_source]
  have hplain : ¬Directive.placeholderStart <:+: [t.piece].flatMap Directive.Piece.plainText :=
    show ¬Directive.placeholderStart <:+: [] by decide
  have hmarkup := Directive.toMarkup_source (List.forall_mem_singleton.2 h.isWellFormed)
    (List.forall_mem_singleton.2 (t.piece_source ▸ hfree)) hplain (hpieces ▸ hsize)
  rw [hpieces] at hmarkup
  rw [hmarkup]
  exact hpieces

end WrittenTag.IsReadable

/-! ## Reading a tag -/

theorem tagText_eq {text : Text} (h : '\x00' ∉ text) : tagText text = Text.toAsciiLower text := by
  refine (List.map_congr_left fun c hc => ?_).trans (List.map_id _)
  obtain ⟨d, hd, rfl⟩ := List.mem_map.1 hc
  refine if_neg fun heq => ?_
  cases hupper : d.isUpper with
  | true =>
    have hlower := Text.isLower_toLower hupper
    rw [heq] at hlower
    exact absurd hlower (by decide)
  | false =>
    rw [Text.toLower_eq_self hupper] at heq
    exact h (heq ▸ hd)

theorem pieces_of_not_mem {text : Text} (h : '&' ∉ text) :
    Reference.pieces true text = text.map .char := by
  induction text with
  | nil => rw [Reference.pieces, List.map_nil]
  | cons c text ih =>
    have hc : c ≠ '&' := fun heq => h (heq ▸ List.mem_cons_self)
    rw [Reference.pieces, if_neg hc, ih fun hmem => h (List.mem_cons_of_mem _ hmem),
      List.map_cons]

theorem replaceNul_eq {text : Text} (hnul : '\x00' ∉ text) : replaceNul text = text := by
  refine (List.map_congr_left fun c hc => ?_).trans (List.map_id _)
  exact if_neg fun heq : c = '\x00' => hnul (heq ▸ hc)

/-- A value without references stands for itself. -/
theorem valueText_eq {text : Text} (hreference : '&' ∉ text) (hnul : '\x00' ∉ text) :
    valueText text = text := by
  rw [valueText, replaceNul_eq hnul, Reference.decode, pieces_of_not_mem hreference,
    List.flatMap_map]
  exact List.flatMap_singleton' text

theorem takeWhile_until {p : Char → Bool} {text : Text} {c : Char} (htext : ∀ d ∈ text, p d = true)
    (hc : p c = false) (rest : Text) : (text ++ c :: rest).takeWhile p = text := by
  rw [Text.takeWhile_append_cons_of_neg hc, List.takeWhile_eq_self_iff.2 htext]

theorem dropWhile_until {p : Char → Bool} {text : Text} {c : Char} (htext : ∀ d ∈ text, p d = true)
    (hc : p c = false) (rest : Text) : (text ++ c :: rest).dropWhile p = c :: rest := by
  rw [Text.dropWhile_append_cons_of_neg hc, List.dropWhile_eq_nil_iff.2 htext, List.nil_append]

/-- A value in quotes is read up to the next quote of the same kind. -/
theorem readValue?_quote {quote : Char} {text : Text} (hquote : quote = '"' ∨ quote = '\'')
    (htext : quote ∉ text) (rest : Text) :
    readValue? (quote :: (text ++ quote :: rest)) = some (valueText text, rest) := by
  have hread : (text ++ quote :: rest).contains quote = true ∧
      (text ++ quote :: rest).takeWhile (· ≠ quote) = text ∧
      ((text ++ quote :: rest).dropWhile (· ≠ quote)).drop 1 = rest := by
    have hne : ∀ c ∈ text, decide (c ≠ quote) = true :=
      fun c hc => decide_eq_true fun heq => htext (heq ▸ hc)
    refine ⟨by simp, takeWhile_until hne (by simp) rest, ?_⟩
    rw [dropWhile_until hne (by simp), List.drop_one, List.tail_cons]
  obtain ⟨hcontains, hvalue, hrest⟩ := hread
  rcases hquote with rfl | rfl
  · simp only [readValue?, List.dropWhile_cons, show isSpace '"' = false by decide,
      Bool.false_eq_true, if_false, hcontains, if_true, hvalue, hrest]
  · simp only [readValue?, List.dropWhile_cons, show isSpace '\'' = false by decide,
      Bool.false_eq_true, if_false, hcontains, if_true, hvalue, hrest]

/-- A value in quotes without references is read as it is written. -/
theorem readValue?_quoted {quote : Char} {text : Text} (hquote : quote = '"' ∨ quote = '\'')
    (htext : ∀ c ∈ text, IsValueChar quote c) (rest : Text) :
    readValue? (quote :: (text ++ quote :: rest)) = some (text, rest) := by
  rw [readValue?_quote hquote fun hmem => (htext _ hmem).1 rfl,
    valueText_eq (fun hmem => (htext _ hmem).2.1 rfl) fun hmem => (htext _ hmem).2.2.2 rfl]

theorem WrittenAttribute.IsReadable.content_isValueChar (h : a.IsReadable) :
    ∀ c ∈ a.content, IsValueChar a.quote c := by
  intro c hc
  obtain ⟨part, hpart, hcpart⟩ := List.mem_flatMap.1 hc
  have hvalue := h.value part hpart
  have hdelimiter : ∀ d ∈ ['<', '%', '>'], IsValueChar a.quote d := by
    rcases h.quote with heq | heq <;> rw [heq] <;> simp [IsValueChar]
  cases part with
  | char d =>
    obtain rfl := List.mem_singleton.1 hcpart
    exact hvalue.2
  | directive code =>
    simp only [TagPart.source, Directive.delimited, List.mem_cons, List.mem_append,
      List.not_mem_nil, or_false] at hcpart
    rcases hcpart with rfl | rfl | hcode | rfl | rfl
    · exact hdelimiter _ (by decide)
    · exact hdelimiter _ (by decide)
    · exact hvalue.2 c hcode
    · exact hdelimiter _ (by decide)
    · exact hdelimiter _ (by decide)

/-- An attribute is read as written, whatever follows it. -/
theorem readAttribute?_source (h : a.IsReadable) {c : Char} {key : Text} (hkey : a.key = c :: key)
    (rest : Text) :
    readAttribute? c (key ++ '=' :: a.quote :: (a.content ++ a.quote :: rest)) =
      some (a.meant, rest) := by
  have hmore : ∀ d ∈ key, (!endsAttributeName d) = true := by
    intro d hd
    rw [(h.key d (hkey ▸ List.mem_cons_of_mem _ hd)).1]
    rfl
  have hequals : (!endsAttributeName '=') = false := by decide
  have hname : tagText (c :: key) = Text.toAsciiLower a.key := by
    rw [← hkey]
    exact tagText_eq fun hmem => (h.key _ hmem).2.2 rfl
  simp only [readAttribute?, takeWhile_until hmore hequals, dropWhile_until hmore hequals,
    List.dropWhile_cons, show isSpace '=' = false by decide, Bool.false_eq_true, if_false, hname,
    readValue?_quoted h.quote h.content_isValueChar, Option.map_some]
  rfl

theorem readAttributes?_of_attribute {text rest after : Text} {c : Char} {first : Attribute}
    (htext : text.dropWhile isSpace = c :: rest) (hgt : c ≠ '>') (hslash : c ≠ '/')
    (hfirst : readAttribute? c rest = some (first, after)) :
    readAttributes? text = (readAttributes? after).map fun (more, selfClosing, rest) =>
      (first :: more, selfClosing, rest) := by
  rw [readAttributes?]
  split
  · next hs => exact absurd (hs.symm.trans htext) (List.cons_ne_nil _ _).symm
  · next hs => exact absurd (List.cons.inj (hs.symm.trans htext)).1.symm hgt
  · next hs => exact absurd (List.cons.inj (hs.symm.trans htext)).1.symm hslash
  · next hs => exact absurd (List.cons.inj (hs.symm.trans htext)).1.symm hslash
  · next hs =>
    obtain ⟨rfl, rfl⟩ := List.cons.inj (hs.symm.trans htext)
    split
    · next hnone =>
      rw [hfirst] at hnone
      cases hnone
    · next hsome =>
      rw [hfirst] at hsome
      obtain ⟨rfl, rfl⟩ := Prod.mk.inj (Option.some.inj hsome)
      rfl

theorem readAttributes?_of_gt {text rest : Text} (htext : text.dropWhile isSpace = '>' :: rest) :
    readAttributes? text = some ([], false, rest) := by
  rw [readAttributes?]
  split
  · next hs => exact absurd (hs.symm.trans htext) (List.cons_ne_nil _ _).symm
  · next hs => rw [(List.cons.inj (hs.symm.trans htext)).2]
  · next hs => exact absurd (List.cons.inj (hs.symm.trans htext)).1 (by decide)
  · next hs => exact absurd (List.cons.inj (hs.symm.trans htext)).1 (by decide)
  · next hgt _ _ hs => exact absurd (List.cons.inj (hs.symm.trans htext)).1 hgt

theorem readAttributes?_of_slash {text rest : Text}
    (htext : text.dropWhile isSpace = '/' :: '>' :: rest) :
    readAttributes? text = some ([], true, rest) := by
  rw [readAttributes?]
  split
  · next hs => exact absurd (hs.symm.trans htext) (List.cons_ne_nil _ _).symm
  · next hs => exact absurd (List.cons.inj (hs.symm.trans htext)).1 (by decide)
  · next hs => rw [(List.cons.inj (List.cons.inj (hs.symm.trans htext)).2).2]
  · next hslash hs =>
    exact absurd (List.cons.inj (hs.symm.trans htext)).2 (hslash rest)
  · next hslash hs => exact absurd (List.cons.inj (hs.symm.trans htext)).1 hslash

theorem readAttributes?_ending (ht : IsGap t.gap) (rest : Text) :
    readAttributes? (t.ending ++ rest) = some ([], t.selfClosing, rest) := by
  have hgap : ∀ c ∈ t.gap, isSpace c = true := fun c hc => (ht c hc).1
  rw [WrittenTag.ending, List.append_assoc]
  cases t.selfClosing with
  | true => exact readAttributes?_of_slash (dropWhile_until hgap (by decide) ('>' :: rest))
  | false => exact readAttributes?_of_gt (dropWhile_until hgap (by decide) rest)

/-- The attributes of a tag are read as written, whatever follows the tag. -/
theorem readAttributes?_source {attributes : List WrittenAttribute}
    (h : ∀ a ∈ attributes, a.IsReadable) (ht : IsGap t.gap) (rest : Text) :
    readAttributes? (attributes.flatMap WrittenAttribute.source ++ (t.ending ++ rest)) =
      some (attributes.map WrittenAttribute.meant, t.selfClosing, rest) := by
  induction attributes with
  | nil => exact readAttributes?_ending ht rest
  | cons a more ih =>
    obtain ⟨ha, hmore⟩ := List.forall_mem_cons.1 h
    obtain ⟨c, key, hkey⟩ := List.exists_cons_of_ne_nil ha.key_ne_nil
    obtain ⟨hends, -, -⟩ := ha.key c (hkey ▸ List.mem_cons_self)
    have hgap : ∀ d ∈ a.gap, isSpace d = true := fun d hd => (ha.gap d hd).1
    have hspace : isSpace c = false := by
      simp only [endsAttributeName, endsName, Bool.or_eq_false_iff] at hends
      exact hends.1.1.1
    have hdrop := dropWhile_until hgap hspace (key ++ '=' :: a.quote :: (a.content ++ a.quote ::
      (more.flatMap WrittenAttribute.source ++ (t.ending ++ rest))))
    have hne : c ≠ '>' ∧ c ≠ '/' := by
      constructor <;> rintro rfl <;> exact absurd hends (by decide)
    have hsource : (a :: more).flatMap WrittenAttribute.source ++ (t.ending ++ rest) =
        a.gap ++ c :: (key ++ '=' :: a.quote :: (a.content ++ a.quote ::
          (more.flatMap WrittenAttribute.source ++ (t.ending ++ rest)))) := by
      simp only [List.flatMap_cons, WrittenAttribute.source, hkey, List.append_assoc,
        List.cons_append, List.nil_append]
    rw [hsource, readAttributes?_of_attribute hdrop hne.1 hne.2 (readAttribute?_source ha hkey _),
      ih hmore, Option.map_some, List.map_cons]

/-- Attributes with keys that are all different are kept. -/
theorem firstOfEachKey_eq {seen : List Text} {attributes : List Attribute}
    (hseen : ∀ pair ∈ attributes, pair.1 ∉ seen) (h : (attributes.map (·.1)).Nodup) :
    firstOfEachKey seen attributes = attributes := by
  induction attributes generalizing seen with
  | nil => rfl
  | cons pair more ih =>
    obtain ⟨hpair, hmore⟩ := List.forall_mem_cons.1 hseen
    rw [List.map_cons, List.nodup_cons] at h
    have hcontains : ¬seen.contains pair.1 = true := by simpa using hpair
    rw [firstOfEachKey, if_neg hcontains, ih ?_ h.2]
    intro other hother
    rw [List.mem_cons, not_or]
    exact ⟨fun heq => h.1 (heq ▸ List.mem_map_of_mem hother), hmore other hother⟩

namespace WrittenTag.IsReadable

variable (h : t.IsReadable)
include h

theorem goesOn_of_mem_name : ∀ c ∈ t.name, (!endsName c) = true := by
  refine List.forall_mem_cons.2 ⟨?_, fun c hc => ?_⟩
  · rw [endsName_eq_false h.first]
    rfl
  · rw [(h.more c hc).1]
    rfl

theorem nul_not_mem_name : '\x00' ∉ t.name := by
  rw [name, List.mem_cons, not_or]
  refine ⟨fun heq => ?_, fun hmem => (h.more _ hmem).2.2.2 rfl⟩
  have hfirst := h.first
  rw [← heq] at hfirst
  exact absurd hfirst (by decide)

/-- White space or the end of the tag follows the name. -/
theorem exists_head_behind_name (rest : Text) :
    ∃ c, (t.attributes.flatMap WrittenAttribute.source ++ (t.ending ++ rest)).head? = some c ∧
      (!endsName c) = false := by
  have hspace : ∀ {gap : Text} {c : Char} {more : Text}, IsGap gap → gap = c :: more →
      (!endsName c) = false := by
    intro gap c more hgap heq
    rw [endsName, (hgap c (heq ▸ List.mem_cons_self)).1]
    rfl
  cases hattributes : t.attributes with
  | cons a more =>
    have ha := h.attributes a (hattributes ▸ List.mem_cons_self)
    obtain ⟨c, gap, hgap⟩ := List.exists_cons_of_ne_nil ha.gap_ne_nil
    refine ⟨c, ?_, hspace ha.gap hgap⟩
    rw [List.flatMap_cons, WrittenAttribute.source, hgap]
    rfl
  | nil =>
    rw [ending]
    cases hgap : t.gap with
    | cons c gap => exact ⟨c, rfl, hspace h.gap hgap⟩
    | nil =>
      cases t.selfClosing with
      | true => exact ⟨'/', rfl, by decide⟩
      | false => exact ⟨'>', rfl, by decide⟩

theorem firstOfEachKey_meant :
    firstOfEachKey [] (t.attributes.map WrittenAttribute.meant) =
      t.attributes.map WrittenAttribute.meant := by
  refine firstOfEachKey_eq (fun _ _ => List.not_mem_nil) ?_
  rw [List.map_map]
  exact h.nodup

theorem scanTag?_source (rest : Text) :
    scanTag? .start (t.name ++ (t.attributes.flatMap WrittenAttribute.source ++
      (t.ending ++ rest))) = some (t.tag, rest) := by
  have hname := h.goesOn_of_mem_name
  obtain ⟨c, hhead, hc⟩ := h.exists_head_behind_name rest
  obtain ⟨after, hafter⟩ := List.head?_eq_some_iff.1 hhead
  have hread := readAttributes?_source h.attributes h.gap rest
  rw [hafter] at hread
  rw [scanTag?, hafter, takeWhile_until hname hc, dropWhile_until hname hc, hread,
    tagText_eq h.nul_not_mem_name]
  simp only [Option.map_some, h.firstOfEachKey_meant]
  rfl

/-- A start tag is read with its attributes as written, whatever follows it. -/
theorem scan_source (inForeign : Bool) (rest : Text) :
    scan inForeign (t.source ++ rest) = ([.tag t.tag], rest) := by
  have hne : ∀ c : Char, c.isAlpha = false → t.first ≠ c := by
    rintro c hc rfl
    rw [h.first] at hc
    cases hc
  have hsource : t.source ++ rest = '<' :: t.first :: (t.more ++
      (t.attributes.flatMap WrittenAttribute.source ++ (t.ending ++ rest))) := by
    simp only [source, name, List.append_assoc, List.cons_append]
  have hscan := h.scanTag?_source rest
  rw [name, List.cons_append] at hscan
  rw [hsource, scan, if_pos rfl, scanMarkup, if_pos h.first, tagToken, hscan]
  · exact hne '!' (by decide)
  · exact hne '/' (by decide)
  · exact hne '?' (by decide)

end WrittenTag.IsReadable

end SlimTemplate.Html
