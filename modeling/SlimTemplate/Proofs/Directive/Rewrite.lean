import SlimTemplate.Directive.Pass
import SlimTemplate.Proofs.Directive.Escape
import SlimTemplate.Proofs.Directive.Read
import SlimTemplate.Proofs.Text.Lines

/-!
# The passes over directives work text by text

Between the first pass and the last, each pass looks for directives of one shape. Neither a text
in which nothing opens a directive nor a directive whose code is plain lets a match run across its
end, and what a pass makes of it is again such a text. So what the passes make of several of them
in a row is what they make of each.

## Main definitions

* `Directive.IsInert`: a text in which nothing opens a directive.
* `Directive.IsSeparate`: a text that a pass treats on its own.
* `Directive.rewrite`: the passes between the first and the last.

## Main statements

* `Directive.rewrite_append`: these passes treat a separate text on its own.
* `Directive.rewrite_delimited_isMarkup`: they leave no directive.
-/

namespace SlimTemplate.Directive

/-- A text in which nothing opens a directive, whatever follows: no `<` is the last character or
stands before a `%`. -/
def IsInert : Text → Prop
  | [] => True
  | c :: text => (c = '<' → ∃ d rest, text = d :: rest ∧ d ≠ '%') ∧ IsInert text

/-- A text without directives that begins and ends as markup does. -/
def IsMarkup (text : Text) : Prop :=
  '%' ∉ text ∧ (text = [] ∨ ∃ inner, text = '<' :: (inner ++ ['>']))

/-- A text in which a pass finds nothing, or a single directive. -/
inductive IsSeparate : Text → Prop
  | inert {text : Text} (h : IsInert text) : IsSeparate text
  /-- All of the text is a directive. -/
  | delimited {inner : Text} (h : IsPlain inner) : IsSeparate (delimited inner)

theorem IsInert.append {a b : Text} (ha : IsInert a) (hb : IsInert b) : IsInert (a ++ b) := by
  induction a with
  | nil => exact hb
  | cons c a ih =>
    refine ⟨?_, ih ha.2⟩
    intro hc
    obtain ⟨d, rest, rfl, hd⟩ := ha.1 hc
    exact ⟨d, rest ++ b, rfl, hd⟩

theorem isInert_of_not_mem {text : Text} (h : '<' ∉ text) : IsInert text := by
  induction text with
  | nil => trivial
  | cons c text ih =>
    refine ⟨?_, ih fun hmem => h (List.mem_cons_of_mem _ hmem)⟩
    rintro rfl
    exact absurd List.mem_cons_self h

theorem isInert_append_singleton {text : Text} (h : '%' ∉ text) : IsInert (text ++ ['>']) := by
  induction text with
  | nil => exact isInert_of_not_mem (by decide)
  | cons c text ih =>
    refine ⟨?_, ih fun hmem => h (List.mem_cons_of_mem _ hmem)⟩
    intro _
    cases text with
    | nil => exact ⟨'>', [], rfl, by decide⟩
    | cons d text =>
      refine ⟨d, text ++ ['>'], rfl, ?_⟩
      rintro rfl
      exact h (List.mem_cons_of_mem _ List.mem_cons_self)

theorem IsMarkup.isInert {text : Text} (h : IsMarkup text) : IsInert text := by
  obtain ⟨hpercent, rfl | ⟨inner, rfl⟩⟩ := h
  · trivial
  · rw [← List.cons_append] at hpercent ⊢
    exact isInert_append_singleton fun hmem => hpercent (List.mem_append_left _ hmem)

/-! ## One pass -/

theorem open?_eq_none (shape : Shape) {c : Char} {text : Text}
    (h : c = '<' → ∃ d rest, text = d :: rest ∧ d ≠ '%') : shape.open? (c :: text) = none := by
  by_cases hc : c = '<'
  · obtain ⟨d, rest, rfl, hd⟩ := h hc
    cases shape <;> simp [Shape.open?, hd]
  · cases shape <;> simp [Shape.open?, hc]

theorem replaceEach_of_read? {shape : Shape} {replace : Directive → Option Text}
    {text after : Text} {d : Directive} (h : read? shape text = some (d, after)) :
    replaceEach shape replace text = (replace d).getD d.source ++ replaceEach shape replace after := by
  cases text with
  | nil => cases shape <;> simp [read?, Shape.open?] at h
  | cons c text =>
    rw [replaceEach]
    split
    · next heq =>
      rw [h] at heq
      obtain ⟨rfl, rfl⟩ := Prod.mk.inj (Option.some.inj heq)
      rfl
    · next heq =>
      rw [h] at heq
      simp at heq

theorem replaceEach_of_read?_eq_none {shape : Shape} {replace : Directive → Option Text}
    {c : Char} {text : Text} (h : read? shape (c :: text) = none) :
    replaceEach shape replace (c :: text) = c :: replaceEach shape replace text := by
  rw [replaceEach]
  split
  · next heq =>
    rw [h] at heq
    simp at heq
  · rfl

/-- A pass goes over an inert text without a change. -/
theorem replaceEach_append_of_isInert (shape : Shape) (replace : Directive → Option Text)
    {text : Text} (h : IsInert text) (rest : Text) :
    replaceEach shape replace (text ++ rest) = text ++ replaceEach shape replace rest := by
  induction text with
  | nil => rfl
  | cons c text ih =>
    have hnone : read? shape (c :: (text ++ rest)) = none := by
      have hopen : shape.open? (c :: (text ++ rest)) = none := by
        refine open?_eq_none shape ?_
        intro hc
        obtain ⟨d, more, rfl, hd⟩ := h.1 hc
        exact ⟨d, more ++ rest, rfl, hd⟩
      rw [read?, hopen]
    rw [List.cons_append, replaceEach_of_read?_eq_none hnone, ih h.2, List.cons_append]

theorem replaceEach_of_isInert (shape : Shape) (replace : Directive → Option Text) {text : Text}
    (h : IsInert text) : replaceEach shape replace text = text := by
  have happend := replaceEach_append_of_isInert shape replace h []
  rwa [replaceEach, List.append_nil] at happend

/-- Behind the first character of a directive nothing opens another. -/
theorem lt_not_mem_tail {inner : Text} (h : IsPlain inner) :
    '<' ∉ '%' :: (inner ++ ['%', '>']) := by
  simp only [List.mem_cons, List.mem_append, not_or]
  exact ⟨by decide, h.1, by decide, by decide, by simp⟩

theorem replaceEach_append_delimited_of_none {shape : Shape} (replace : Directive → Option Text)
    {inner rest : Text} (h : IsPlain inner)
    (hread : read? shape (delimited inner ++ rest) = none) :
    replaceEach shape replace (delimited inner ++ rest) =
      delimited inner ++ replaceEach shape replace rest := by
  rw [delimited, List.cons_append] at hread ⊢
  rw [replaceEach_of_read?_eq_none hread,
    replaceEach_append_of_isInert shape replace (isInert_of_not_mem (lt_not_mem_tail h))]
  rfl

/-- A pass goes over a directive without a change, or makes of all of it what it makes of the
directive, whatever follows. -/
theorem replaceEach_append_delimited (shape : Shape) (replace : Directive → Option Text)
    {inner : Text} (h : IsPlain inner) :
    (∀ rest, replaceEach shape replace (delimited inner ++ rest) =
        delimited inner ++ replaceEach shape replace rest) ∨
      ∃ d m, IsPlain d.body ∧ replace d = some m ∧
        ∀ rest, replaceEach shape replace (delimited inner ++ rest) =
          m ++ replaceEach shape replace rest := by
  rcases read?_delimited shape h.2 with hnone | ⟨d, hsource, hbody, hread⟩
  · left
    intro rest
    exact replaceEach_append_delimited_of_none replace h (hnone rest)
  · cases hreplace : replace d with
    | none =>
      left
      intro rest
      rw [replaceEach_of_read? (hread rest), hreplace, Option.getD_none, hsource]
    | some m =>
      right
      refine ⟨d, m, ⟨fun hmem => h.1 (hbody _ hmem), fun hmem => h.2 (hbody _ hmem)⟩, hreplace, ?_⟩
      intro rest
      rw [replaceEach_of_read? (hread rest), hreplace, Option.getD_some]

/-- A pass treats a separate text on its own. -/
theorem replaceEach_append (shape : Shape) (replace : Directive → Option Text) {text : Text}
    (h : IsSeparate text) (rest : Text) :
    replaceEach shape replace (text ++ rest) =
      replaceEach shape replace text ++ replaceEach shape replace rest := by
  cases h with
  | inert h =>
    rw [replaceEach_append_of_isInert shape replace h, replaceEach_of_isInert shape replace h]
  | @delimited inner h =>
    rcases replaceEach_append_delimited shape replace h with hsame | ⟨-, m, -, -, hmarkup⟩
    · have hnil := hsame []
      rw [List.append_nil, replaceEach, List.append_nil] at hnil
      rw [hsame, hnil]
    · have hnil := hmarkup []
      rw [List.append_nil, replaceEach, List.append_nil] at hnil
      rw [hmarkup, hnil]

/-! ## What passes make of a directive -/

theorem percent_not_mem_encode (kind : CommentKind) {body : Text} (h : '%' ∉ body) :
    '%' ∉ encode kind body := by
  simp only [encode, commentData, List.mem_append, not_or]
  refine ⟨⟨by decide, ?_, ?_⟩, by decide⟩
  · cases kind <;> decide
  · intro hmem
    rcases Text.mem_of_mem_replaceAll hmem with hmem | hmem
    · exact absurd hmem (by decide)
    · exact h hmem

theorem isMarkup_of_ends {first inner last : Text} (hfirst : first.head? = some '<')
    (hlast : last.getLast? = some '>') (h : '%' ∉ first ++ inner ++ last) :
    IsMarkup (first ++ inner ++ last) := by
  refine ⟨h, Or.inr ?_⟩
  obtain ⟨a, rfl⟩ := List.head?_eq_some_iff.1 hfirst
  obtain ⟨b, rfl⟩ := List.getLast?_eq_some_iff.1 hlast
  refine ⟨a ++ inner ++ b, ?_⟩
  simp only [List.cons_append, List.append_assoc]

theorem encode_isMarkup (kind : CommentKind) {body : Text} (h : '%' ∉ body) :
    IsMarkup (encode kind body) :=
  isMarkup_of_ends (by decide) (by decide) (percent_not_mem_encode kind h)

theorem openingTag_isMarkup {code : Text} (h : '%' ∉ code) : IsMarkup (openingTag code) :=
  isMarkup_of_ends (by decide) (by decide) (not_mem_openingTag (by decide) h)

theorem closingTag_isMarkup : IsMarkup closingTag :=
  ⟨by decide, Or.inr ⟨"/template".toList, rfl⟩⟩

theorem IsMarkup.append {a b : Text} (ha : IsMarkup a) (hb : IsMarkup b) : IsMarkup (a ++ b) := by
  obtain ⟨hpa, ha⟩ := ha
  obtain ⟨hpb, hb⟩ := hb
  refine ⟨?_, ?_⟩
  · rw [List.mem_append, not_or]
    exact ⟨hpa, hpb⟩
  · rcases ha with rfl | ⟨x, rfl⟩
    · exact hb
    · rcases hb with rfl | ⟨y, rfl⟩
      · exact Or.inr ⟨x, by rw [List.append_nil]⟩
      · exact Or.inr ⟨x ++ '>' :: '<' :: y, by simp⟩

theorem isPlain_code {d : Directive} (h : IsPlain d.body) : IsPlain d.code :=
  ⟨mt Text.mem_of_mem_trim h.1, mt Text.mem_of_mem_trim h.2⟩

theorem percent_not_mem_code {d : Directive} (h : IsPlain d.body) : '%' ∉ d.code :=
  (isPlain_code h).2

/-- A marker holds what the code of its directive holds, and perhaps an equals sign. -/
theorem not_mem_markerValue {d : Directive} {c : Char} (hne : c ≠ '=') (h : c ∉ d.code) :
    c ∉ markerValue d := by
  unfold markerValue
  split
  · rw [List.mem_cons, not_or]
    exact ⟨hne, h⟩
  · exact h

/-- What a pass makes of a directive: markup, or another directive. -/
def IsOutcome (text : Text) : Prop :=
  IsMarkup text ∨ ∃ inner, IsPlain inner ∧ text = delimited inner

theorem IsOutcome.isSeparate {text : Text} (h : IsOutcome text) : IsSeparate text := by
  rcases h with h | ⟨inner, h, rfl⟩
  · exact .inert h.isInert
  · exact .delimited h

/-- An output expression over several lines that opens a block stays a directive. -/
theorem outputLinesMarkup_isOutcome {d : Directive} (h : IsPlain d.body) {m : Text}
    (hm : outputLinesMarkup d = some m) : IsOutcome m := by
  obtain rfl := Option.some.inj hm
  split
  · right
    refine ⟨"= ".toList ++ Text.collapse d.code ++ [' '], ?_, ?_⟩
    · have hplain : ∀ c, c ≠ ' ' → c ≠ '=' → c ∉ d.body →
          c ∉ "= ".toList ++ Text.collapse d.code ++ [' '] := by
        intro c hspace hequals hbody
        simp only [List.mem_append, not_or]
        refine ⟨⟨?_, ?_⟩, by simpa using hspace⟩
        · simpa using ⟨hequals, hspace⟩
        · intro hmem
          rcases Text.mem_of_mem_collapse hmem with hc | hc
          · exact hspace hc
          · exact hbody (Text.mem_of_mem_trim hc)
      exact ⟨hplain '<' (by decide) (by decide) h.1, hplain '%' (by decide) (by decide) h.2⟩
    · simp [delimited]
  · exact Or.inl (encode_isMarkup _ (percent_not_mem_code h))

theorem openerMarkup_isMarkup {d : Directive} (h : IsPlain d.body) {m : Text}
    (hm : openerMarkup d = some m) : IsMarkup m := by
  obtain ⟨-, hm⟩ := Option.ite_none_right_eq_some.1 hm
  rw [← Option.some.inj hm]
  exact openingTag_isMarkup (not_mem_markerValue (by decide) (percent_not_mem_code h))

theorem branchMarkup_isMarkup {d : Directive} (h : IsPlain d.body) {m : Text}
    (hm : branchMarkup d = some m) : IsMarkup m := by
  obtain ⟨-, hm⟩ := Option.ite_none_right_eq_some.1 hm
  rw [← Option.some.inj hm]
  exact closingTag_isMarkup.append (openingTag_isMarkup (percent_not_mem_code h))

theorem endMarkup_isMarkup {d : Directive} {m : Text} (hm : endMarkup d = some m) :
    IsMarkup m := by
  obtain ⟨-, hm⟩ := Option.ite_none_right_eq_some.1 hm
  rw [← Option.some.inj hm]
  exact closingTag_isMarkup

theorem restMarkup_isMarkup {d : Directive} (h : IsPlain d.body) {m : Text}
    (hm : restMarkup d = some m) : IsMarkup m := by
  obtain rfl := Option.some.inj hm
  split
  · exact ⟨by simp, Or.inl rfl⟩
  · exact encode_isMarkup _ (percent_not_mem_code h)

theorem mem_of_mem_linesOfCode {body : Text} {c : Char} (h : c ∈ linesOfCode body) : c ∈ body :=
  (Text.trimEnd_isPrefix body).subset ((List.dropWhile_sublist _).subset h)

namespace Pass

/-- The shape of directives that a pass between the first and the last looks for, and what it
makes of each. -/
def rule? : Pass → Option (Shape × (Directive → Option Text))
  | codeLines => some (.codeLines, codeLinesMarkup)
  | outputLines => some (.outputLines, outputLinesMarkup)
  | output => some (.output, outputMarkup)
  | openers => some (.any, openerMarkup)
  | branches => some (.any, branchMarkup)
  | ends => some (.any, endMarkup)
  | rest => some (.any, restMarkup)
  | setAside | putBack => none

theorem rule?_isOutcome {pass : Pass} {shape : Shape} {replace : Directive → Option Text}
    (hrule : pass.rule? = some (shape, replace)) {d : Directive} (h : IsPlain d.body) {m : Text}
    (hm : replace d = some m) : IsOutcome m := by
  have hcode := percent_not_mem_code h
  cases pass with
  | setAside => simp [rule?] at hrule
  | putBack => simp [rule?] at hrule
  | codeLines =>
    obtain ⟨rfl, rfl⟩ := Prod.mk.inj (Option.some.inj hrule)
    obtain rfl := Option.some.inj hm
    exact Or.inl (encode_isMarkup _ fun hmem => h.2 (mem_of_mem_linesOfCode hmem))
  | outputLines =>
    obtain ⟨rfl, rfl⟩ := Prod.mk.inj (Option.some.inj hrule)
    exact outputLinesMarkup_isOutcome h hm
  | output =>
    obtain ⟨rfl, rfl⟩ := Prod.mk.inj (Option.some.inj hrule)
    unfold outputMarkup at hm
    split at hm
    · simp at hm
    · obtain rfl := Option.some.inj hm
      unfold outputComment
      split <;> exact Or.inl (encode_isMarkup _ hcode)
  | openers =>
    obtain ⟨rfl, rfl⟩ := Prod.mk.inj (Option.some.inj hrule)
    exact Or.inl (openerMarkup_isMarkup h hm)
  | branches =>
    obtain ⟨rfl, rfl⟩ := Prod.mk.inj (Option.some.inj hrule)
    exact Or.inl (branchMarkup_isMarkup h hm)
  | ends =>
    obtain ⟨rfl, rfl⟩ := Prod.mk.inj (Option.some.inj hrule)
    exact Or.inl (endMarkup_isMarkup hm)
  | rest =>
    obtain ⟨rfl, rfl⟩ := Prod.mk.inj (Option.some.inj hrule)
    exact Or.inl (restMarkup_isMarkup h hm)

/-- A pass between the first and the last, on a text. -/
def rewrite (pass : Pass) (text : Text) : Text :=
  match pass.rule? with
  | some (shape, replace) => replaceEach shape replace text
  | none => text

theorem rewrite_append (pass : Pass) {text : Text} (h : IsSeparate text) (rest : Text) :
    pass.rewrite (text ++ rest) = pass.rewrite text ++ pass.rewrite rest := by
  unfold rewrite
  split
  · exact replaceEach_append _ _ h rest
  · rfl

theorem rewrite_of_isInert (pass : Pass) {text : Text} (h : IsInert text) :
    pass.rewrite text = text := by
  unfold rewrite
  split
  · exact replaceEach_of_isInert _ _ h
  · rfl

/-- A pass makes of a directive markup or a directive. -/
theorem rewrite_isOutcome (pass : Pass) {text : Text} (h : IsOutcome text) :
    IsOutcome (pass.rewrite text) := by
  rcases h with h | ⟨inner, h, rfl⟩
  · rw [rewrite_of_isInert pass h.isInert]
    exact Or.inl h
  · unfold rewrite
    split
    · next shape replace hrule =>
      rcases replaceEach_append_delimited shape replace h with hsame | ⟨d, m, hbody, hm, hmarkup⟩
      · have hnil := hsame []
        rw [List.append_nil, replaceEach, List.append_nil] at hnil
        rw [hnil]
        exact Or.inr ⟨inner, h, rfl⟩
      · have hnil := hmarkup []
        rw [List.append_nil, replaceEach, List.append_nil] at hnil
        rw [hnil]
        exact rule?_isOutcome hrule hbody hm
    · exact Or.inr ⟨inner, h, rfl⟩

/-- The last of these passes leaves no directive, as it reads any. -/
theorem rest_rewrite_isMarkup {text : Text} (h : IsOutcome text) :
    IsMarkup (Pass.rest.rewrite text) := by
  rcases h with h | ⟨inner, h, rfl⟩
  · rw [rewrite_of_isInert _ h.isInert]
    exact h
  · obtain ⟨d, hbody, hread⟩ := exists_read?_any h
    have hread := hread []
    rw [List.append_nil] at hread
    have hm : restMarkup d = some ((restMarkup d).getD d.source) := rfl
    have hrewrite : Pass.rest.rewrite (delimited inner) = (restMarkup d).getD d.source ++ [] := by
      simp only [rewrite, rule?]
      rw [replaceEach_of_read? hread, replaceEach]
    rw [hrewrite, List.append_nil]
    exact restMarkup_isMarkup ⟨fun hmem => h.1 (hbody _ hmem), fun hmem => h.2 (hbody _ hmem)⟩ hm

/-- The passes between the first and the last. -/
def rewriting : List Pass :=
  [codeLines, outputLines, output, openers, branches, ends, rest]

end Pass

/-- The passes between the first and the last, on a text. -/
def rewrite (text : Text) : Text :=
  Pass.rewriting.foldl (fun text pass => pass.rewrite text) text

/-- All passes: directives in tags are set aside, the others rewritten, and those put back. -/
theorem toMarkup_eq (text : Text) :
    toMarkup text = putBack (setAside 0 text).2 (rewrite (setAside 0 text).1) :=
  rfl

theorem foldl_rewrite_append (passes : List Pass) {text : Text} (h : IsSeparate text)
    (rest : Text) :
    passes.foldl (fun text pass => pass.rewrite text) (text ++ rest) =
      passes.foldl (fun text pass => pass.rewrite text) text ++
        passes.foldl (fun text pass => pass.rewrite text) rest := by
  induction passes generalizing text rest with
  | nil => rfl
  | cons pass passes ih =>
    rw [List.foldl_cons, List.foldl_cons, List.foldl_cons, pass.rewrite_append h]
    refine ih ?_ _
    cases h with
    | inert h =>
      rw [pass.rewrite_of_isInert h]
      exact .inert h
    | delimited h => exact (pass.rewrite_isOutcome (Or.inr ⟨_, h, rfl⟩)).isSeparate

/-- The passes treat a separate text on its own. -/
theorem rewrite_append {text : Text} (h : IsSeparate text) (rest : Text) :
    rewrite (text ++ rest) = rewrite text ++ rewrite rest :=
  foldl_rewrite_append Pass.rewriting h rest

theorem rewrite_of_isInert {text : Text} (h : IsInert text) : rewrite text = text := by
  simp only [rewrite, Pass.rewriting, List.foldl_cons, List.foldl_nil, Pass.rewrite_of_isInert _ h]

/-- The passes leave no directive. -/
theorem rewrite_delimited_isMarkup {inner : Text} (h : IsPlain inner) :
    IsMarkup (rewrite (delimited inner)) := by
  simp only [rewrite, Pass.rewriting, List.foldl_cons, List.foldl_nil]
  refine Pass.rest_rewrite_isMarkup ?_
  iterate 6 refine Pass.rewrite_isOutcome _ ?_
  exact Or.inr ⟨inner, h, rfl⟩

end SlimTemplate.Directive
