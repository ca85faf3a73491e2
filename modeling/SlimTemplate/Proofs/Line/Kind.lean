import SlimTemplate.Line.Kind
import SlimTemplate.Proofs.Text.Search

/-!
# Kinds by the first characters

What the kind of a line says about its first characters, and the other way round.

## Main statements

* `LineKind.isComment_cons`: which lines are comments.
* `LineKind.of_bar`, `LineKind.of_ne_textPipe`: which lines are text behind a bar.
* `LineKind.isElement_append`: a line that opens an element does so with marks behind its name.
-/

namespace SlimTemplate.LineKind

variable {c : Char} {rest : Text}

theorem isComment_eq_false_of_isElement {kind : LineKind} (h : kind.isElement = true) :
    kind.isComment = false := by
  cases kind with
  | element => rfl
  | shorthand => rfl
  | _ => cases h

theorem of_cons (h : startsDoctype (c :: rest) = false) : of (c :: rest) = ofFirst c rest := by
  rw [of, if_neg (by simp [h])]

/-- The word for a document type begins with a letter. -/
theorem startsDoctype_eq_false (hc : c.toLower ≠ 'd') : startsDoctype (c :: rest) = false := by
  have hword : Text.toAsciiLower "doctype".toList = 'd' :: "octype".toList := by decide
  rw [startsDoctype, Text.eqIgnoreAsciiCase, hword, List.take_succ_cons, Text.toAsciiLower,
    List.map_cons, beq_eq_false_iff_ne]
  exact fun heq => hc (List.cons.inj heq).1

/-- A line is a comment if an exclamation mark or a blank follows its slash. -/
theorem isComment_cons (c : Char) (rest : Text) :
    (of (c :: rest)).isComment =
      (decide (c = '/') && rest.head?.any fun d => d = '!' || Text.isBlank d) := by
  by_cases hc : c = '/'
  · subst hc
    rw [of_cons (startsDoctype_eq_false (by decide))]
    cases rest with
    | nil => rfl
    | cons d rest =>
      unfold ofFirst
      rw [if_pos rfl]
      split
      · next heq =>
        obtain ⟨rfl, -⟩ := List.cons.inj heq
        rfl
      · next hnot heq =>
        obtain ⟨rfl, rfl⟩ := List.cons.inj heq
        have hd : d ≠ '!' := hnot
        rw [List.head?_cons, Option.any_some, decide_eq_false hd]
        cases Text.isBlank d <;> rfl
      · next heq => cases heq
  · rw [decide_eq_false hc, Bool.false_and]
    cases hdoctype : startsDoctype (c :: rest) with
    | true =>
      rw [of, if_pos hdoctype]
      rfl
    | false =>
      rw [of_cons hdoctype]
      unfold ofFirst
      rw [if_neg hc]
      repeat' split
      all_goals rfl

/-- A comment begins with a slash. -/
theorem head?_of_isComment {content : Text} (h : (of content).isComment = true) :
    content.head? = some '/' := by
  cases content with
  | nil => cases h
  | cons c rest =>
    rw [isComment_cons, Bool.and_eq_true, decide_eq_true_eq] at h
    rw [h.1, List.head?_cons]

theorem of_bar (rest : Text) : of ('|' :: rest) = textPipe := by
  rw [of_cons (startsDoctype_eq_false (by decide))]
  rfl

/-- Only text behind a bar begins with a bar. -/
theorem of_ne_textPipe (hc : c ≠ '|') : of (c :: rest) ≠ textPipe := by
  rw [of]
  split
  · decide
  · unfold ofFirst
    repeat' split
    all_goals decide

/-! ## Names with marks behind them -/

/-- What a sign is no part of does not reach beyond the sign. -/
theorem isPrefix_of_append_cons {part name : Text} {sign : Char} (hsign : sign ∉ part)
    (h : part <+: name ++ sign :: rest) : part <+: name := by
  -- Of two prefixes one is a prefix of the other; the longer one would hold the sign.
  have hname : name ++ [sign] <+: name ++ sign :: rest := ⟨rest, by simp⟩
  rcases List.prefix_or_prefix_of_prefix h hname with hpart | hlong
  · rcases List.prefix_concat_iff.1 hpart with heq | hpart
    · rw [heq] at hsign
      exact absurd (List.mem_append_right name List.mem_cons_self) hsign
    · exact hpart
  · exact absurd (hlong.subset (List.mem_append_right name List.mem_cons_self)) hsign

theorem startsDoctype_iff {text : Text} :
    startsDoctype text = true ↔ "doctype".toList <+: Text.toAsciiLower text := by
  have hword : Text.toAsciiLower "doctype".toList = "doctype".toList := by decide
  rw [startsDoctype, Text.eqIgnoreAsciiCase, hword, beq_iff_eq, List.prefix_iff_eq_take, eq_comm,
    Text.toAsciiLower, List.map_take]
  rfl

theorem isElement_cons_of_isAlpha (hc : c.isAlpha = true) (rest : Text) :
    (of (c :: rest)).isElement =
      (!startsDoctype (c :: rest) && !Text.hasPrefix "ruby:".toList (c :: rest)) := by
  have hsigns : ∀ sign : Char, sign.isAlpha = false → c ≠ sign := by
    rintro sign hsign rfl
    exact Bool.false_ne_true (hsign.symm.trans hc)
  cases hdoctype : startsDoctype (c :: rest) with
  | true =>
    rw [of, if_pos hdoctype]
    rfl
  | false =>
    rw [of_cons hdoctype]
    unfold ofFirst
    rw [if_neg (hsigns '/' (by decide)), if_neg (hsigns '-' (by decide)),
      if_neg (hsigns '=' (by decide))]
    cases Text.hasPrefix "ruby:".toList (c :: rest) with
    | true => rfl
    | false =>
      simp [hsigns '|' (by decide), hsigns '#' (by decide), hsigns '.' (by decide), hc, isElement]

theorem isElement_cons_of_sign (hc : c = '#' ∨ c = '.') (rest : Text) :
    (of (c :: rest)).isElement = true := by
  rcases hc with rfl | rfl
  · rw [of_cons (startsDoctype_eq_false (by decide))]
    rfl
  · rw [of_cons (startsDoctype_eq_false (by decide))]
    rfl

/-- A line that opens an element does so with marks behind its name. -/
theorem isElement_append {name : Text} {sign : Char} (hsign : sign = '#' ∨ sign = '.')
    (hname : ∃ c rest, name = c :: rest ∧ c.isAlpha = true) (h : (of name).isElement = true)
    (rest : Text) : (of (name ++ sign :: rest)).isElement = true := by
  obtain ⟨c, more, rfl, hc⟩ := hname
  rw [isElement_cons_of_isAlpha hc, Bool.and_eq_true, Bool.not_eq_true', Bool.not_eq_true',
    ← Bool.not_eq_true, ← Bool.not_eq_true, startsDoctype_iff, Text.hasPrefix_iff] at h
  rw [List.cons_append, isElement_cons_of_isAlpha hc, Bool.and_eq_true, Bool.not_eq_true',
    Bool.not_eq_true', ← Bool.not_eq_true, ← Bool.not_eq_true, startsDoctype_iff,
    Text.hasPrefix_iff, ← List.cons_append]
  constructor
  · rw [Text.toAsciiLower, List.map_append, List.map_cons]
    refine fun hdoctype => h.1 (isPrefix_of_append_cons ?_ hdoctype)
    rcases hsign with rfl | rfl <;> decide
  · refine fun hruby => h.2 (isPrefix_of_append_cons ?_ hruby)
    rcases hsign with rfl | rfl <;> decide

end SlimTemplate.LineKind
