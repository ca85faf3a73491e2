import SlimTemplate.Proofs.Directive.Rewrite

/-!
# Balanced template tags

Start and end tags of templates are counted where they stand in a text. A text in which every `<`
is closed by a `>` can be counted apart from what follows it, so the counts of markup add up along
a tree of templates.

## Main definitions

* `Directive.openings`, `Directive.closings`: the numbers of start and end tags in a text.
* `Directive.IsBalanced`: a text that closes the templates that it opens and no others.
* `Directive.Forest`: templates that stand side by side and in each other.

## Main statements

* `Directive.Forest.render_isBalanced`: a forest of templates is balanced as text.
-/

namespace SlimTemplate

/-- The number of places where a part begins in a text. -/
def Text.occurrences (part : Text) : Text → Nat
  | [] => 0
  | c :: text => (if hasPrefix part (c :: text) then 1 else 0) + occurrences part text

namespace Directive

/-- The beginning of the start tag of a template. -/
def templateStart : Text :=
  "<template ".toList

/-- The number of start tags of templates. -/
def openings (text : Text) : Nat :=
  Text.occurrences templateStart text

/-- The number of end tags of templates. -/
def closings (text : Text) : Nat :=
  Text.occurrences closingTag text

/-- A text in which a `>` follows every `<`. -/
def IsClosed : Text → Prop
  | [] => True
  | c :: text => (c = '<' → '>' ∈ text) ∧ IsClosed text

theorem IsClosed.append {a b : Text} (ha : IsClosed a) (hb : IsClosed b) : IsClosed (a ++ b) := by
  induction a with
  | nil => exact hb
  | cons c a ih => exact ⟨fun hc => List.mem_append_left _ (ha.1 hc), ih ha.2⟩

theorem isClosed_of_not_mem {text : Text} (h : '<' ∉ text) : IsClosed text := by
  induction text with
  | nil => trivial
  | cons c text ih =>
    refine ⟨?_, ih fun hmem => h (List.mem_cons_of_mem _ hmem)⟩
    rintro rfl
    exact absurd List.mem_cons_self h

theorem isClosed_append_singleton {text : Text} : IsClosed (text ++ ['>']) := by
  induction text with
  | nil => exact isClosed_of_not_mem (by decide)
  | cons c text ih => exact ⟨fun _ => List.mem_append_right _ List.mem_cons_self, ih⟩

theorem isClosed_append_of_getLast? {text last : Text} (h : last.getLast? = some '>') :
    IsClosed (text ++ last) := by
  obtain ⟨before, rfl⟩ := List.getLast?_eq_some_iff.1 h
  rw [← List.append_assoc]
  exact isClosed_append_singleton

theorem IsMarkup.isClosed {text : Text} (h : IsMarkup text) : IsClosed text := by
  obtain ⟨-, rfl | ⟨inner, rfl⟩⟩ := h
  · trivial
  · rw [← List.cons_append]
    exact isClosed_append_singleton

/-! ## Counting -/

/-- A part that begins with `<` and has a `>` nowhere but at its end. -/
structure IsTagPart (part : Text) : Prop where
  head_eq : part.head? = some '<'
  /-- No `>` stands before its end. -/
  not_mem : '>' ∉ part.dropLast

theorem isTagPart_templateStart : IsTagPart templateStart :=
  ⟨by decide, by decide⟩

theorem isTagPart_closingTag : IsTagPart closingTag :=
  ⟨by decide, by decide⟩

theorem occurrences_le_append (part a b : Text) :
    Text.occurrences part a ≤ Text.occurrences part (a ++ b) := by
  induction a with
  | nil => exact Nat.zero_le _
  | cons c a ih =>
    rw [List.cons_append, Text.occurrences, Text.occurrences]
    by_cases hbegins : Text.hasPrefix part (c :: a) = true
    · have hlonger : Text.hasPrefix part (c :: (a ++ b)) = true := by
        rw [Text.hasPrefix_iff] at hbegins ⊢
        exact hbegins.trans (List.prefix_append (c :: a) b)
      rw [if_pos hbegins, if_pos hlonger]
      omega
    · rw [if_neg hbegins]
      omega

theorem occurrences_eq_zero {part text : Text} (hpart : part.head? = some '<') (h : '<' ∉ text) :
    Text.occurrences part text = 0 := by
  obtain ⟨rest, rfl⟩ := List.head?_eq_some_iff.1 hpart
  induction text with
  | nil => rfl
  | cons c text ih =>
    have hc : c ≠ '<' := by
      rintro rfl
      exact h List.mem_cons_self
    have hbegins : Text.hasPrefix ('<' :: rest) (c :: text) = false := by
      simp [Text.hasPrefix, Text.dropPrefix?, hc.symm]
    rw [Text.occurrences, hbegins, ih fun hmem => h (List.mem_cons_of_mem _ hmem)]
    rfl

/-- Nothing is counted across the end of a closed text. -/
theorem hasPrefix_append {part : Text} (hpart : IsTagPart part) {c : Char} {a : Text}
    (h : IsClosed (c :: a)) (b : Text) :
    Text.hasPrefix part (c :: (a ++ b)) = Text.hasPrefix part (c :: a) := by
  rw [Bool.eq_iff_iff, Text.hasPrefix_iff, Text.hasPrefix_iff]
  constructor
  · intro hbegins
    rcases List.prefix_or_prefix_of_prefix hbegins (List.prefix_append (c :: a) b) with hp | hp
    · exact hp
    · -- Were the text shorter than the part, the `>` in it would stand before the end of the part.
      obtain ⟨rest, hrest⟩ := hp
      cases rest with
      | nil =>
        rw [← hrest, List.append_nil]
      | cons e rest =>
        have hhead := hpart.head_eq
        rw [← hrest] at hhead
        have hc : c = '<' := Option.some.inj hhead
        refine absurd ?_ hpart.not_mem
        rw [← hrest, List.dropLast_append_of_ne_nil (List.cons_ne_nil e rest)]
        exact List.mem_append_left _ (List.mem_cons_of_mem _ (h.1 hc))
  · intro hbegins
    exact hbegins.trans (List.prefix_append (c :: a) b)

/-- The counts of a closed text and of what follows it add up. -/
theorem occurrences_append {part : Text} (hpart : IsTagPart part) {a : Text} (h : IsClosed a)
    (b : Text) :
    Text.occurrences part (a ++ b) = Text.occurrences part a + Text.occurrences part b := by
  induction a with
  | nil => rw [List.nil_append, Text.occurrences, Nat.zero_add]
  | cons c a ih =>
    rw [List.cons_append, Text.occurrences, Text.occurrences, hasPrefix_append hpart h, ih h.2,
      Nat.add_assoc]

theorem openings_append {a : Text} (h : IsClosed a) (b : Text) :
    openings (a ++ b) = openings a + openings b :=
  occurrences_append isTagPart_templateStart h b

theorem closings_append {a : Text} (h : IsClosed a) (b : Text) :
    closings (a ++ b) = closings a + closings b :=
  occurrences_append isTagPart_closingTag h b

/-! ## The counts of single tags -/

theorem hasPrefix_append_eq_false {part first : Text} (h : ¬part.take first.length <+: first)
    (inner last : Text) : Text.hasPrefix part (first ++ inner ++ last) = false := by
  rw [← Bool.not_eq_true, Text.hasPrefix_iff, List.append_assoc]
  intro hbegins
  refine h ?_
  have htake := hbegins.take first.length
  rwa [List.take_left] at htake

theorem hasPrefix_append_eq_true {part first : Text} (h : part <+: first) (inner last : Text) :
    Text.hasPrefix part (first ++ inner ++ last) = true := by
  rw [Text.hasPrefix_iff, List.append_assoc]
  exact h.trans (List.prefix_append _ _)

/-- In a text with a single `<`, a part is counted at its start or not at all. -/
theorem occurrences_of_first {part first inner last : Text} (hpart : part.head? = some '<')
    (hfirst : first.head? = some '<') (htail : '<' ∉ first.tail) (hinner : '<' ∉ inner)
    (hlast : '<' ∉ last) :
    Text.occurrences part (first ++ inner ++ last) =
      if Text.hasPrefix part (first ++ inner ++ last) then 1 else 0 := by
  obtain ⟨rest, rfl⟩ := List.head?_eq_some_iff.1 hfirst
  have hrest : '<' ∉ rest ++ inner ++ last := by
    simp only [List.mem_append, not_or]
    exact ⟨⟨htail, hinner⟩, hlast⟩
  rw [List.cons_append, List.cons_append, Text.occurrences, occurrences_eq_zero hpart hrest,
    Nat.add_zero]

/-- The start tag of a template opens one. -/
theorem count_openingTag {code : Text} (h : '<' ∉ code) :
    openings (openingTag code) = 1 ∧ closings (openingTag code) = 0 := by
  have hcode : '<' ∉ escapeCode code := not_mem_escapeCode (by decide) h
  unfold openings closings openingTag
  constructor
  · rw [occurrences_of_first isTagPart_templateStart.head_eq (by decide) (by decide) hcode
      (by decide), hasPrefix_append_eq_true (by decide)]
    rfl
  · rw [occurrences_of_first isTagPart_closingTag.head_eq (by decide) (by decide) hcode
      (by decide), hasPrefix_append_eq_false (by decide)]
    rfl

theorem count_closingTag : openings closingTag = 0 ∧ closings closingTag = 1 := by
  decide

/-- Markup that holds no tag of a template. -/
structure IsTagless (text : Text) : Prop where
  closed : IsClosed text
  openings_eq : openings text = 0
  closings_eq : closings text = 0

theorem isTagless_of_not_mem {text : Text} (h : '<' ∉ text) : IsTagless text :=
  ⟨isClosed_of_not_mem h, occurrences_eq_zero isTagPart_templateStart.head_eq h,
    occurrences_eq_zero isTagPart_closingTag.head_eq h⟩

/-- A comment holds no tag of a template. -/
theorem encode_isTagless (kind : CommentKind) {body : Text} (h : IsPlain body) :
    IsTagless (encode kind body) := by
  have hdata : '<' ∉ commentData kind body := by
    rw [commentData, List.mem_append, not_or]
    refine ⟨by cases kind <;> decide, ?_⟩
    intro hmem
    rcases Text.mem_of_mem_replaceAll hmem with hmem | hmem
    · exact absurd hmem (by decide)
    · exact h.1 hmem
  have hcount : ∀ part : Text, part.head? = some '<' →
      ¬part.take "<!--".toList.length <+: "<!--".toList →
      Text.occurrences part (encode kind body) = 0 := by
    intro part hpart hne
    rw [encode, occurrences_of_first hpart (by decide) (by decide) hdata (by decide),
      hasPrefix_append_eq_false hne]
    rfl
  exact ⟨(encode_isMarkup kind h.2).isClosed, hcount templateStart (by decide) (by decide),
    hcount closingTag (by decide) (by decide)⟩

/-! ## Balance -/

/-- A text that closes the templates that it opens, and none before it is opened. -/
structure IsBalanced (text : Text) : Prop where
  closed : IsClosed text
  /-- No part of it from the start on closes more templates than it opens. -/
  closings_le : ∀ before, before <+: text → closings before ≤ openings before
  /-- It closes as many as it opens. -/
  closings_eq : closings text = openings text

theorem closings_le_of_isPrefix {a b : Text} (h : a <+: b) : closings a ≤ closings b := by
  obtain ⟨rest, rfl⟩ := h
  exact occurrences_le_append closingTag a rest

theorem prefix_append_cases {before a b : Text} (h : before <+: a ++ b) :
    before <+: a ∨ ∃ more, more <+: b ∧ before = a ++ more := by
  rcases List.prefix_or_prefix_of_prefix h (List.prefix_append a b) with hp | ⟨more, rfl⟩
  · exact Or.inl hp
  · exact Or.inr ⟨more, (List.prefix_append_right_inj a).1 h, rfl⟩

theorem IsTagless.isBalanced {text : Text} (h : IsTagless text) : IsBalanced text := by
  refine ⟨h.closed, ?_, ?_⟩
  · intro before hbefore
    have hle := closings_le_of_isPrefix hbefore
    have hzero := h.closings_eq
    omega
  · rw [h.closings_eq, h.openings_eq]

theorem IsBalanced.append {a b : Text} (ha : IsBalanced a) (hb : IsBalanced b) :
    IsBalanced (a ++ b) := by
  refine ⟨ha.closed.append hb.closed, ?_, ?_⟩
  · intro before hbefore
    rcases prefix_append_cases hbefore with hp | ⟨more, hmore, rfl⟩
    · exact ha.closings_le before hp
    · rw [closings_append ha.closed, openings_append ha.closed, ha.closings_eq]
      have hle := hb.closings_le more hmore
      omega
  · rw [closings_append ha.closed, openings_append ha.closed, ha.closings_eq, hb.closings_eq]

theorem openingTag_isClosed {code : Text} : IsClosed (openingTag code) :=
  isClosed_append_of_getLast? (by decide)

/-- A template around balanced text is balanced. -/
theorem IsBalanced.template {code text : Text} (hcode : '<' ∉ code) (h : IsBalanced text) :
    IsBalanced (openingTag code ++ (text ++ closingTag)) := by
  obtain ⟨hopen, hclose⟩ := count_openingTag hcode
  obtain ⟨hopen', hclose'⟩ := count_closingTag
  refine ⟨openingTag_isClosed.append (h.closed.append closingTag_isMarkup.isClosed), ?_, ?_⟩
  · intro before hbefore
    rcases prefix_append_cases hbefore with hp | ⟨more, hmore, rfl⟩
    · have hle := closings_le_of_isPrefix hp
      omega
    · rw [closings_append openingTag_isClosed, openings_append openingTag_isClosed, hopen, hclose]
      rcases prefix_append_cases hmore with hp | ⟨last, hlast, rfl⟩
      · have hle := h.closings_le more hp
        omega
      · rw [closings_append h.closed, openings_append h.closed]
        have hle := closings_le_of_isPrefix hlast
        have heq := h.closings_eq
        omega
  · rw [closings_append openingTag_isClosed, openings_append openingTag_isClosed,
      closings_append h.closed, openings_append h.closed, h.closings_eq, hopen, hclose, hopen',
      hclose']
    omega

/-! ## Templates in each other -/

/-- Templates that stand side by side and in each other, between leaves of other markup. -/
inductive Forest where
  | nil
  /-- Markup without a template, and what follows it. -/
  | leaf (markup : Text) (rest : Forest)
  /-- A template that carries a value, what it encloses, and what follows it. -/
  | template (value : Text) (children rest : Forest)
  deriving DecidableEq, Repr

namespace Forest

/-- A forest as markup. -/
def render : Forest → Text
  | nil => []
  | leaf markup rest => markup ++ rest.render
  | template value children rest =>
    openingTag value ++ (children.render ++ closingTag) ++ rest.render

/-- Whether the templates of a forest are all its tags of templates. -/
def IsClean : Forest → Prop
  | nil => True
  | leaf markup rest => IsTagless markup ∧ rest.IsClean
  | template value children rest => '<' ∉ value ∧ children.IsClean ∧ rest.IsClean

/-- A forest of templates is balanced as text. -/
theorem render_isBalanced (forest : Forest) (h : forest.IsClean) : IsBalanced forest.render := by
  induction forest with
  | nil => exact (isTagless_of_not_mem List.not_mem_nil).isBalanced
  | leaf markup rest ih => exact h.1.isBalanced.append (ih h.2)
  | template value children rest ihc ihr => exact ((ihc h.2.1).template h.1).append (ihr h.2.2)

end Forest

end Directive

end SlimTemplate
