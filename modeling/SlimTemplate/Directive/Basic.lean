import SlimTemplate.Text.Blank

/-!
# Directives in markup

A directive is code between `<%` and `%>`. A sign after the opening tells its kind: `=` marks an
output expression, `-` plain code. The code runs to the first `%>`, which a hyphen may precede;
inside the code a percent sign and the character after it are read together, so that `%%>` closes
nothing. A block of lines has its delimiters on lines of their own.

## Main definitions

* `Directive`: a directive taken apart.
* `Directive.Shape`: the forms in which directives are looked for.
* `Directive.read?`: a directive of a shape at the start of a text.
* `Directive.replaceEach`: every directive of a shape replaced.

## Main statements

* `Directive.source_append_of_read?`: reading takes a text apart without loss.
-/

namespace SlimTemplate

/-- A directive taken apart: what is written is the three texts in a row. -/
structure Directive where
  /-- The opening delimiter with its sign, and with the line break of a block of lines. -/
  opening : Text
  sign : Option Char
  body : Text
  /-- The closing delimiter, with what belongs to it before. -/
  closing : Text
  deriving DecidableEq, Repr

namespace Directive

/-- A directive as written. -/
def source (d : Directive) : Text :=
  d.opening ++ d.body ++ d.closing

/-- The code of a directive, trimmed. -/
def code (d : Directive) : Text :=
  Text.trim d.body

/-- Whether a directive is an output expression. -/
def isOutput (d : Directive) : Bool :=
  d.sign = some '='

/-- The forms in which directives are looked for. -/
inductive Shape where
  | any
  | output
  /-- Code with the delimiters on lines of their own. -/
  | codeLines
  /-- An output expression with the delimiters on lines of their own. -/
  | outputLines
  deriving DecidableEq, Repr

/-- A part at the start of a text, and what follows it. -/
abbrev Reading := Option (Text × Text)

/-- The text of several parts, one after the other. -/
def andThen (first : Reading) (more : Text → Reading) : Reading :=
  first.bind fun (part, rest) => (more rest).map fun (part', after) => (part ++ part', after)

/-- Spaces and tabs, of which there may be none. -/
def gap? (text : Text) : Reading :=
  some (text.takeWhile fun c => c = ' ' || c = '\t', text.dropWhile fun c => c = ' ' || c = '\t')

/-- A line break. -/
def lineEnd? : Text → Reading
  | '\n' :: rest => some (['\n'], rest)
  | '\r' :: '\n' :: rest => some (['\r', '\n'], rest)
  | _ => none

/-- The closing delimiter. -/
def close? : Text → Reading
  | '%' :: '>' :: rest => some (['%', '>'], rest)
  | '-' :: '%' :: '>' :: rest => some (['-', '%', '>'], rest)
  | _ => none

/-- A line break with the spaces and tabs before it. -/
def lineBreak? (text : Text) : Reading :=
  andThen (gap? text) lineEnd?

/-- The closing delimiter on a line of its own, from the line break before it on. -/
def closeOnLine? (text : Text) : Reading :=
  andThen (lineEnd? text) fun rest => andThen (gap? rest) close?

/-- The opening delimiter of a directive of a shape. -/
def Shape.open? : Shape → Text → Reading
  | any, '<' :: '%' :: '-' :: rest => some (['<', '%', '-'], rest)
  | any, '<' :: '%' :: '=' :: rest => some (['<', '%', '='], rest)
  | any, '<' :: '%' :: rest => some (['<', '%'], rest)
  | output, '<' :: '%' :: '=' :: rest => some (['<', '%', '='], rest)
  | codeLines, '<' :: '%' :: rest => andThen (some (['<', '%'], rest)) lineBreak?
  | outputLines, '<' :: '%' :: '=' :: rest => andThen (some (['<', '%', '='], rest)) lineBreak?
  | _, _ => none

/-- The closing delimiter of a directive of a shape. -/
def Shape.close? : Shape → Text → Reading
  | any | output => Directive.close?
  | codeLines | outputLines => closeOnLine?

/-- The code up to the closing delimiter, that delimiter, and what follows. -/
def readBody? (close? : Text → Reading) : Text → Option (Text × Text × Text)
  | [] => none
  | c :: text =>
    match close? (c :: text) with
    | some (closing, after) => some ([], closing, after)
    | none =>
      if c = '%' then
        match text with
        | [] => none
        | d :: rest =>
          if d = '>' then none
          else (readBody? close? rest).map fun (body, more) => (c :: d :: body, more)
      else (readBody? close? text).map fun (body, more) => (c :: body, more)

/-- The sign that an opening delimiter shows. -/
def signOf (opening : Text) : Option Char :=
  (opening.drop 2).head?.filter fun c => c = '=' || c = '-'

/-- Reads a directive of a shape at the start of a text. -/
def read? (shape : Shape) (text : Text) : Option (Directive × Text) :=
  match shape.open? text with
  | none => none
  | some (opening, rest) =>
    (readBody? shape.close? rest).map fun (body, closing, after) =>
      (⟨opening, signOf opening, body, closing⟩, after)

/-- Whether a reading takes texts apart without loss. -/
def IsLossless (read : Text → Reading) : Prop :=
  ∀ {text part after}, read text = some (part, after) → part ++ after = text

theorem andThen_lossless {first : Reading} {more : Text → Reading} {text part after : Text}
    (hfirst : ∀ {p r}, first = some (p, r) → p ++ r = text) (hmore : IsLossless more)
    (h : andThen first more = some (part, after)) : part ++ after = text := by
  obtain ⟨⟨p, r⟩, hp, hm⟩ := Option.bind_eq_some_iff.1 h
  obtain ⟨⟨p', r'⟩, hp', heq⟩ := Option.map_eq_some_iff.1 hm
  obtain ⟨rfl, rfl⟩ := by simpa using heq
  have h1 := hfirst hp
  have h2 := hmore hp'
  rw [← h1, ← h2]
  simp

theorem isLossless_gap? : IsLossless gap? := by
  intro text part after h
  obtain ⟨rfl, rfl⟩ := Prod.mk.inj (Option.some.inj h)
  exact List.takeWhile_append_dropWhile

theorem isLossless_lineEnd? : IsLossless lineEnd? := by
  intro text part after h
  unfold lineEnd? at h
  split at h
  · obtain ⟨rfl, rfl⟩ := Prod.mk.inj (Option.some.inj h)
    rfl
  · obtain ⟨rfl, rfl⟩ := Prod.mk.inj (Option.some.inj h)
    rfl
  · simp at h

theorem isLossless_close? : IsLossless close? := by
  intro text part after h
  unfold close? at h
  split at h
  · obtain ⟨rfl, rfl⟩ := Prod.mk.inj (Option.some.inj h)
    rfl
  · obtain ⟨rfl, rfl⟩ := Prod.mk.inj (Option.some.inj h)
    rfl
  · simp at h

theorem isLossless_lineBreak? : IsLossless lineBreak? := by
  intro text part after h
  exact andThen_lossless (fun hp => isLossless_gap? hp) isLossless_lineEnd? h

theorem isLossless_closeOnLine? : IsLossless closeOnLine? := by
  intro text part after h
  refine andThen_lossless (fun hp => isLossless_lineEnd? hp) (fun {_ _ _} h => ?_) h
  exact andThen_lossless (fun hp => isLossless_gap? hp) isLossless_close? h

theorem isLossless_open? (shape : Shape) : IsLossless shape.open? := by
  intro text part after h
  unfold Shape.open? at h
  split at h
  · obtain ⟨rfl, rfl⟩ := by simpa using h
    rfl
  · obtain ⟨rfl, rfl⟩ := by simpa using h
    rfl
  · obtain ⟨rfl, rfl⟩ := by simpa using h
    rfl
  · obtain ⟨rfl, rfl⟩ := by simpa using h
    rfl
  · refine andThen_lossless (fun hp => ?_) isLossless_lineBreak? h
    obtain ⟨rfl, rfl⟩ := by simpa using hp
    rfl
  · refine andThen_lossless (fun hp => ?_) isLossless_lineBreak? h
    obtain ⟨rfl, rfl⟩ := by simpa using hp
    rfl
  · simp at h

theorem open?_ne_nil {shape : Shape} {text part after : Text}
    (h : shape.open? text = some (part, after)) : part ≠ [] := by
  unfold Shape.open? at h
  split at h
  all_goals first
    | (simp only [Option.some.injEq, Prod.mk.injEq] at h; obtain ⟨rfl, -⟩ := h; simp)
    | (obtain ⟨⟨p, r⟩, hp, hm⟩ := Option.bind_eq_some_iff.1 h
       obtain ⟨⟨p', r'⟩, -, heq⟩ := Option.map_eq_some_iff.1 hm
       simp only [Option.some.injEq, Prod.mk.injEq] at hp heq
       obtain ⟨rfl, -⟩ := hp
       obtain ⟨rfl, -⟩ := heq
       simp)
    | simp at h

theorem isLossless_shapeClose? (shape : Shape) : IsLossless shape.close? := by
  cases shape
  · exact isLossless_close?
  · exact isLossless_close?
  · exact isLossless_closeOnLine?
  · exact isLossless_closeOnLine?

theorem append_of_readBody? {close? : Text → Reading} (hc : IsLossless close?)
    {text body closing after : Text} (h : readBody? close? text = some (body, closing, after)) :
    body ++ closing ++ after = text := by
  fun_induction readBody? close? text generalizing body with
  | case1 => simp at h
  | case2 c text closing' after' hcl =>
    obtain ⟨rfl, rfl, rfl⟩ := by simpa using h
    simpa using hc hcl
  | case3 => simp at h
  | case4 => simp at h
  | case5 c rest _ _ ih =>
    obtain ⟨⟨b, cl, a⟩, hr, heq⟩ := Option.map_eq_some_iff.1 h
    obtain ⟨rfl, rfl, rfl⟩ := by simpa using heq
    simp [← ih hr]
  | case6 c text _ _ ih =>
    obtain ⟨⟨b, cl, a⟩, hr, heq⟩ := Option.map_eq_some_iff.1 h
    obtain ⟨rfl, rfl, rfl⟩ := by simpa using heq
    simp [← ih hr]

/-- Reading takes a text apart without loss. -/
theorem source_append_of_read? {shape : Shape} {text after : Text} {d : Directive}
    (h : read? shape text = some (d, after)) : d.source ++ after = text := by
  unfold read? at h
  split at h
  · simp at h
  · next opening rest ho =>
    obtain ⟨⟨b, cl, a⟩, hr, heq⟩ := Option.map_eq_some_iff.1 h
    obtain ⟨rfl, rfl⟩ := by simpa using heq
    have h1 := isLossless_open? shape ho
    have h2 := append_of_readBody? (isLossless_shapeClose? shape) hr
    simp only [source]
    rw [← h1, ← h2]
    simp

theorem length_read?_lt {shape : Shape} {text after : Text} {d : Directive}
    (h : read? shape text = some (d, after)) : after.length < text.length := by
  have hs := source_append_of_read? h
  have hne : d.opening ≠ [] := by
    unfold read? at h
    split at h
    · simp at h
    · next opening rest ho =>
      obtain ⟨⟨b, cl, a⟩, hr, heq⟩ := Option.map_eq_some_iff.1 h
      obtain ⟨rfl, rfl⟩ := by simpa using heq
      exact open?_ne_nil ho
  have := List.length_pos_iff.2 hne
  rw [← hs]
  simp only [source, List.length_append]
  omega

/-- Every directive of a shape, found from the left, is replaced by what `replace` makes of it, or
stays when it makes nothing. -/
def replaceEach (shape : Shape) (replace : Directive → Option Text) : Text → Text
  | [] => []
  | c :: text =>
    match _h : read? shape (c :: text) with
    | some (d, after) => (replace d).getD d.source ++ replaceEach shape replace after
    | none => c :: replaceEach shape replace text
termination_by text => text.length
decreasing_by
  · exact length_read?_lt _h
  · simp

end Directive

end SlimTemplate
