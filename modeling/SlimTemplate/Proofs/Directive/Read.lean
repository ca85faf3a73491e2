import SlimTemplate.Directive.Basic
import SlimTemplate.Proofs.Text.Search

/-!
# Directives read alike whatever follows

The first `%>` after the opening of a directive closes it, or the directive is not read at all: no
reading goes on behind it. So a directive whose code holds neither `<` nor `%` is read as the
same directive whatever text follows it, and it is read to its end.

## Main definitions

* `Directive.delimited`: a text between the delimiters of a directive.
* `Directive.IsPlain`: a text that holds neither `<` nor `%`.
* `Directive.StaysBefore`, `Directive.StopsAt`: readers that do not reach the next `%>`, and those
  that reach it and stop there.

## Main statements

* `Directive.readBody?_stopsAt`: the code of a directive ends before the next `%>`.
* `Directive.read?_delimited`: a directive is read as the same whatever follows it.
-/

namespace SlimTemplate.Directive

/-- A text between the delimiters of a directive. It begins with the sign, if there is one, and
ends in the hyphen that may stand before the closing delimiter. -/
def delimited (inner : Text) : Text :=
  '<' :: '%' :: (inner ++ ['%', '>'])

/-- A text that neither opens nor closes anything. -/
def IsPlain (inner : Text) : Prop :=
  '<' ∉ inner ∧ '%' ∉ inner

instance (inner : Text) : Decidable (IsPlain inner) :=
  inferInstanceAs (Decidable ('<' ∉ inner ∧ '%' ∉ inner))

theorem delimited_append (inner rest : Text) :
    delimited inner ++ rest = '<' :: '%' :: (inner ++ '%' :: '>' :: rest) := by
  simp [delimited]

/-- A reader that reads a part of what stands before the next `%>`, or nothing. -/
def StaysBefore (read : Text → Reading) : Prop :=
  ∀ inner, '%' ∉ inner →
    (∀ rest, read (inner ++ '%' :: '>' :: rest) = none) ∨
      ∃ part more, inner = part ++ more ∧
        ∀ rest, read (inner ++ '%' :: '>' :: rest) = some (part, more ++ '%' :: '>' :: rest)

/-- A reader that reads up to the end of the next `%>`, or nothing. -/
def StopsAt (read : Text → Reading) : Prop :=
  ∀ inner, '%' ∉ inner →
    (∀ rest, read (inner ++ '%' :: '>' :: rest) = none) ∨
      ∀ rest, read (inner ++ '%' :: '>' :: rest) = some (inner ++ ['%', '>'], rest)

theorem StaysBefore.andThen {first second : Text → Reading} (hfirst : StaysBefore first)
    (hsecond : StaysBefore second) :
    StaysBefore fun text => Directive.andThen (first text) second := by
  intro inner hinner
  rcases hfirst inner hinner with hnone | ⟨part, more, rfl, hsome⟩
  · left
    intro rest
    simp only [Directive.andThen, hnone, Option.bind_none]
  · have hmore : '%' ∉ more := fun h => hinner (List.mem_append_right _ h)
    rcases hsecond more hmore with hnone | ⟨part', more', rfl, hsome'⟩
    · left
      intro rest
      simp only [Directive.andThen, hsome, Option.bind_some, hnone, Option.map_none]
    · right
      refine ⟨part ++ part', more', by rw [List.append_assoc], fun rest => ?_⟩
      simp only [Directive.andThen, hsome, Option.bind_some, hsome', Option.map_some]

theorem StaysBefore.andThen_stopsAt {first second : Text → Reading} (hfirst : StaysBefore first)
    (hsecond : StopsAt second) : StopsAt fun text => Directive.andThen (first text) second := by
  intro inner hinner
  rcases hfirst inner hinner with hnone | ⟨part, more, rfl, hsome⟩
  · left
    intro rest
    simp only [Directive.andThen, hnone, Option.bind_none]
  · have hmore : '%' ∉ more := fun h => hinner (List.mem_append_right _ h)
    rcases hsecond more hmore with hnone | hsome'
    · left
      intro rest
      simp only [Directive.andThen, hsome, Option.bind_some, hnone, Option.map_none]
    · right
      intro rest
      simp only [Directive.andThen, hsome, Option.bind_some, hsome', Option.map_some]
      rw [List.append_assoc]

theorem staysBefore_gap? : StaysBefore gap? := by
  intro inner _
  right
  refine ⟨inner.takeWhile fun c => c = ' ' || c = '\t',
    inner.dropWhile fun c => c = ' ' || c = '\t', List.takeWhile_append_dropWhile.symm, ?_⟩
  intro rest
  rw [gap?, Text.takeWhile_append_cons_of_neg (by decide),
    Text.dropWhile_append_cons_of_neg (by decide)]

theorem staysBefore_lineEnd? : StaysBefore lineEnd? := by
  intro inner _
  cases inner with
  | nil => exact Or.inl fun _ => rfl
  | cons c inner =>
    by_cases hlf : c = '\n'
    · subst hlf
      exact Or.inr ⟨['\n'], inner, rfl, fun _ => rfl⟩
    · by_cases hcr : c = '\r'
      · subst hcr
        cases inner with
        | nil => exact Or.inl fun _ => rfl
        | cons d inner =>
          by_cases hd : d = '\n'
          · subst hd
            exact Or.inr ⟨['\r', '\n'], inner, rfl, fun _ => rfl⟩
          · left
            intro rest
            simp [lineEnd?, hd]
      · left
        intro rest
        simp [lineEnd?, hlf, hcr]

theorem staysBefore_lineBreak? : StaysBefore lineBreak? :=
  staysBefore_gap?.andThen staysBefore_lineEnd?

theorem stopsAt_close? : StopsAt close? := by
  intro inner hinner
  cases inner with
  | nil => exact Or.inr fun _ => rfl
  | cons c inner =>
    have hc : c ≠ '%' := by
      rintro rfl
      exact hinner List.mem_cons_self
    by_cases hdash : c = '-'
    · subst hdash
      cases inner with
      | nil => exact Or.inr fun _ => rfl
      | cons d inner =>
        have hd : d ≠ '%' := by
          rintro rfl
          exact hinner (List.mem_cons_of_mem _ List.mem_cons_self)
        left
        intro rest
        simp [close?, hd]
    · left
      intro rest
      simp [close?, hc, hdash]

theorem stopsAt_closeOnLine? : StopsAt closeOnLine? :=
  staysBefore_lineEnd?.andThen_stopsAt (staysBefore_gap?.andThen_stopsAt stopsAt_close?)

theorem stopsAt_shapeClose? (shape : Shape) : StopsAt shape.close? := by
  cases shape with
  | any => exact stopsAt_close?
  | output => exact stopsAt_close?
  | codeLines => exact stopsAt_closeOnLine?
  | outputLines => exact stopsAt_closeOnLine?

theorem readBody?_of_close {close? : Text → Reading} {c : Char} {text closing after : Text}
    (h : close? (c :: text) = some (closing, after)) :
    readBody? close? (c :: text) = some ([], closing, after) := by
  unfold readBody?
  rw [h]

theorem readBody?_cons {close? : Text → Reading} {c : Char} {text : Text}
    (h : close? (c :: text) = none) (hc : c ≠ '%') :
    readBody? close? (c :: text) =
      (readBody? close? text).map fun (body, more) => (c :: body, more) := by
  rw [readBody?.eq_def]
  simp only [h, if_neg hc]

/-- No code goes on over a closing delimiter. -/
theorem readBody?_percent {close? : Text → Reading} {rest : Text}
    (h : close? ('%' :: '>' :: rest) = none) : readBody? close? ('%' :: '>' :: rest) = none := by
  rw [readBody?.eq_def]
  simp only [h, if_true]

/-- The code of a directive ends before the next `%>`, whatever follows that. -/
theorem readBody?_stopsAt {close? : Text → Reading} (hclose : StopsAt close?) {inner : Text}
    (hinner : '%' ∉ inner) :
    (∀ rest, readBody? close? (inner ++ '%' :: '>' :: rest) = none) ∨
      ∃ body more, inner = body ++ more ∧
        ∀ rest, readBody? close? (inner ++ '%' :: '>' :: rest) =
          some (body, more ++ ['%', '>'], rest) := by
  induction inner with
  | nil =>
    rcases hclose [] hinner with hnone | hsome
    · left
      intro rest
      exact readBody?_percent (hnone rest)
    · right
      exact ⟨[], [], rfl, fun rest => readBody?_of_close (hsome rest)⟩
  | cons c inner ih =>
    have hc : c ≠ '%' := by
      rintro rfl
      exact hinner List.mem_cons_self
    rcases hclose (c :: inner) hinner with hnone | hsome
    · simp only [List.cons_append] at hnone
      rcases ih fun h => hinner (List.mem_cons_of_mem _ h) with hbody | ⟨body, more, rfl, hbody⟩
      · left
        intro rest
        rw [List.cons_append, readBody?_cons (hnone rest) hc, hbody, Option.map_none]
      · right
        refine ⟨c :: body, more, rfl, fun rest => ?_⟩
        rw [List.cons_append, readBody?_cons (hnone rest) hc, hbody, Option.map_some]
    · right
      exact ⟨[], c :: inner, rfl, fun rest => readBody?_of_close (hsome rest)⟩

theorem StaysBefore.after {read : Text → Reading} (h : StaysBefore read) (opening : Text)
    {inner : Text} (hinner : '%' ∉ inner) :
    (∀ rest, Directive.andThen (some (opening, inner ++ '%' :: '>' :: rest)) read = none) ∨
      ∃ part more, inner = part ++ more ∧
        ∀ rest, Directive.andThen (some (opening, inner ++ '%' :: '>' :: rest)) read =
          some (opening ++ part, more ++ '%' :: '>' :: rest) := by
  rcases h inner hinner with hnone | ⟨part, more, rfl, hsome⟩
  · left
    intro rest
    simp only [Directive.andThen, Option.bind_some, hnone, Option.map_none]
  · right
    refine ⟨part, more, rfl, fun rest => ?_⟩
    simp only [Directive.andThen, Option.bind_some, hsome, Option.map_some]

/-- The opening of a directive ends before the next `%>`, whatever follows that. -/
theorem open?_staysBefore (shape : Shape) {inner : Text} (hinner : '%' ∉ inner) :
    (∀ rest, shape.open? (delimited inner ++ rest) = none) ∨
      ∃ part more, inner = part ++ more ∧
        ∀ rest, shape.open? (delimited inner ++ rest) =
          some ('<' :: '%' :: part, more ++ '%' :: '>' :: rest) := by
  simp only [delimited_append]
  cases shape with
  | any =>
    right
    cases inner with
    | nil => exact ⟨[], [], rfl, fun _ => rfl⟩
    | cons c inner =>
      by_cases hdash : c = '-'
      · subst hdash
        exact ⟨['-'], inner, rfl, fun _ => rfl⟩
      · by_cases hequals : c = '='
        · subst hequals
          exact ⟨['='], inner, rfl, fun _ => rfl⟩
        · refine ⟨[], c :: inner, rfl, fun rest => ?_⟩
          simp [Shape.open?, hdash, hequals]
  | output =>
    cases inner with
    | nil => exact Or.inl fun _ => rfl
    | cons c inner =>
      by_cases hequals : c = '='
      · subst hequals
        exact Or.inr ⟨['='], inner, rfl, fun _ => rfl⟩
      · left
        intro rest
        simp [Shape.open?, hequals]
  | codeLines =>
    rcases staysBefore_lineBreak?.after ['<', '%'] hinner with hnone | ⟨part, more, rfl, hsome⟩
    · exact Or.inl hnone
    · exact Or.inr ⟨part, more, rfl, hsome⟩
  | outputLines =>
    cases inner with
    | nil => exact Or.inl fun _ => rfl
    | cons c inner =>
      by_cases hequals : c = '='
      · subst hequals
        have hmore : '%' ∉ inner := mt (List.mem_cons_of_mem _) hinner
        rcases staysBefore_lineBreak?.after ['<', '%', '='] hmore with
          hnone | ⟨part, more, rfl, hsome⟩
        · exact Or.inl hnone
        · exact Or.inr ⟨'=' :: part, more, rfl, hsome⟩
      · left
        intro rest
        simp [Shape.open?, hequals]

/-- A directive is read as the same whatever follows it. -/
theorem read?_delimited (shape : Shape) {inner : Text} (hinner : '%' ∉ inner) :
    (∀ rest, read? shape (delimited inner ++ rest) = none) ∨
      ∃ d : Directive, d.source = delimited inner ∧ (∀ c ∈ d.body, c ∈ inner) ∧
        ∀ rest, read? shape (delimited inner ++ rest) = some (d, rest) := by
  rcases open?_staysBefore shape hinner with hnone | ⟨part, more, rfl, hopen⟩
  · left
    intro rest
    rw [read?, hnone]
  · have hmore : '%' ∉ more := fun h => hinner (List.mem_append_right _ h)
    rcases readBody?_stopsAt (stopsAt_shapeClose? shape) hmore with hnone | ⟨body, tail, rfl, hbody⟩
    · left
      intro rest
      simp only [read?, hopen, hnone, Option.map_none]
    · right
      refine ⟨⟨'<' :: '%' :: part, signOf ('<' :: '%' :: part), body, tail ++ ['%', '>']⟩,
        ?_, ?_, fun rest => ?_⟩
      · simp [source, delimited]
      · intro c hc
        exact List.mem_append_right _ (List.mem_append_left _ hc)
      · simp only [read?, hopen, hbody, Option.map_some]

theorem readBody?_close?_isSome {inner : Text} (hinner : '%' ∉ inner) (rest : Text) :
    (readBody? close? (inner ++ '%' :: '>' :: rest)).isSome := by
  induction inner with
  | nil =>
    rw [List.nil_append, readBody?_of_close rfl]
    rfl
  | cons c inner ih =>
    have hc : c ≠ '%' := by
      rintro rfl
      exact hinner List.mem_cons_self
    rw [List.cons_append]
    cases hclose : close? (c :: (inner ++ '%' :: '>' :: rest)) with
    | some reading =>
      rw [readBody?_of_close hclose]
      rfl
    | none =>
      rw [readBody?_cons hclose hc, Option.isSome_map]
      exact ih fun h => hinner (List.mem_cons_of_mem _ h)

theorem open?_any_isSome (inner rest : Text) :
    (Shape.any.open? (delimited inner ++ rest)).isSome := by
  rw [delimited_append]
  cases inner with
  | nil => rfl
  | cons c inner =>
    by_cases hdash : c = '-'
    · subst hdash
      rfl
    · by_cases hequals : c = '='
      · subst hequals
        rfl
      · simp [Shape.open?, hdash, hequals]

/-- Every directive is one of the shape without conditions. -/
theorem exists_read?_any {inner : Text} (h : IsPlain inner) :
    ∃ d : Directive, (∀ c ∈ d.body, c ∈ inner) ∧
      ∀ rest, read? .any (delimited inner ++ rest) = some (d, rest) := by
  rcases read?_delimited .any h.2 with hnone | ⟨d, -, hbody, hread⟩
  · rcases open?_staysBefore .any h.2 with hopen | ⟨part, more, rfl, hopen⟩
    · have hsome := open?_any_isSome inner []
      rw [hopen] at hsome
      simp at hsome
    · have hmore : '%' ∉ more := fun hmem => h.2 (List.mem_append_right _ hmem)
      have hsome := readBody?_close?_isSome hmore []
      have hread := hnone []
      simp only [read?, hopen, Option.map_eq_none_iff] at hread
      rw [← Shape.close?.eq_1, hread] at hsome
      simp at hsome
  · exact ⟨d, hbody, hread⟩

end SlimTemplate.Directive
