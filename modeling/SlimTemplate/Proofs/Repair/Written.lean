import SlimTemplate.Proofs.Line.Head
import SlimTemplate.Repair.Basic

/-!
# Lines that a repair writes

A repair writes lines of two forms: the bare head of a line that had text behind it, and text
behind a bar. Neither form is repaired again, and to the lines around it a bare head looks like
the line it comes from.

## Main definitions

* `Repair.IsWritten`: a line that a repair writes in place of another.
* `Repair.StandsFor`: a line after a repair of others.

## Main statements

* `Repair.headAndText?_head`: a bare head has no text behind it.
* `Repair.isTextBelow_bare`: a bare head is text below an element exactly if its line was.
* `Repair.IsWritten.headAndText?_eq_none`, `Repair.IsWritten.pipeSlash?_eq_none`: neither repair
  starts at a line that was written.
-/

namespace SlimTemplate.Repair

variable {content head text : Text} {line : NumberedLine}

/-! ## Heads with text behind them -/

theorem headAndText?_eq_some (h : headAndText? content = some (head, text)) :
    ∃ scanned c rest, Head.scan? content = some scanned ∧ scanned.text = head ∧
      scanned.remainder = c :: rest ∧ Text.isBlank c = true ∧
      text = Text.trim (c :: rest) := by
  rw [headAndText?] at h
  split at h
  · obtain ⟨scanned, hscan, hbehind⟩ := Option.bind_eq_some_iff.1 h
    obtain ⟨behind, htext, hpair⟩ := Option.map_eq_some_iff.1 hbehind
    obtain ⟨rfl, rfl⟩ := Prod.mk.inj hpair
    rw [Head.textBehind?] at htext
    cases hremainder : scanned.remainder with
    | nil =>
      rw [hremainder] at htext
      exact absurd htext (by simp)
    | cons c rest =>
      rw [hremainder] at htext
      by_cases hc : Text.isBlank c = true
      · by_cases hempty : (Text.trim (c :: rest)).isEmpty = true
        · simp [hc, hempty] at htext
        · refine ⟨scanned, c, rest, hscan, rfl, hremainder, hc, ?_⟩
          simpa [hc, hempty] using htext.symm
      · simp [hc] at htext
  · exact absurd h (by simp)

/-- Without a head there is no head with text behind it. -/
theorem headAndText?_eq_none (h : ∀ scanned, Head.scan? content = some scanned →
    scanned.remainder = []) : headAndText? content = none := by
  by_contra hne
  obtain ⟨⟨head, text⟩, hsome⟩ := Option.ne_none_iff_exists'.1 hne
  obtain ⟨scanned, c, rest, hscan, -, hremainder, -⟩ := headAndText?_eq_some hsome
  rw [h scanned hscan] at hremainder
  exact List.cons_ne_nil c rest hremainder.symm

/-- A line that begins with something else than a head has none with text behind it. -/
theorem headAndText?_eq_none_of_head? {c : Char} (h : content.head? = some c)
    (halpha : c.isAlpha = false) (hid : c ≠ '#') (hclass : c ≠ '.') :
    headAndText? content = none := by
  refine headAndText?_eq_none ?_
  intro scanned hscan
  obtain ⟨d, rest, rfl, hd⟩ := Head.scan?_eq_some hscan
  rw [List.head?_cons, Option.some.injEq] at h
  subst h
  rcases hd with hd | hd | hd
  · exact absurd (halpha.symm.trans hd) Bool.false_ne_true
  · exact absurd hd hid
  · exact absurd hd hclass

theorem eq_append_of_headAndText? (h : headAndText? content = some (head, text)) :
    ∃ c rest, content = head ++ c :: rest ∧ Text.isBlank c = true ∧
      text = Text.trim (c :: rest) := by
  obtain ⟨scanned, c, rest, hscan, rfl, hremainder, hc, htext⟩ := headAndText?_eq_some h
  refine ⟨c, rest, ?_, hc, htext⟩
  rw [← hremainder, Head.text_append_remainder hscan]

/-- The text behind a head is part of the line. -/
theorem infix_of_headAndText? (h : headAndText? content = some (head, text)) :
    text <:+: content := by
  obtain ⟨c, rest, rfl, -, rfl⟩ := eq_append_of_headAndText? h
  exact (Text.trim_isInfix _).trans (List.suffix_append head _).isInfix

/-- A bare head has no text behind it. -/
theorem headAndText?_head (h : headAndText? content = some (head, text)) :
    headAndText? head = none := by
  obtain ⟨scanned, c, rest, hscan, rfl, hremainder, hc, -⟩ := headAndText?_eq_some h
  refine headAndText?_eq_none ?_
  intro again hagain
  rw [Head.scan?_text hscan hremainder hc, Option.some.injEq] at hagain
  rw [← hagain]

theorem head_eq_cons (h : headAndText? content = some (head, text)) :
    ∃ d after, head = d :: after ∧ (d.isAlpha = true ∨ d = '#' ∨ d = '.') := by
  obtain ⟨scanned, c, rest, hscan, rfl, hremainder, hc, -⟩ := headAndText?_eq_some h
  exact Head.scan?_eq_some (Head.scan?_text hscan hremainder hc)

/-- A head begins with a character that is neither blank nor a slash. -/
theorem head?_head (h : headAndText? content = some (head, text)) :
    ∃ d, head.head? = some d ∧ Text.isBlank d = false ∧ d ≠ '/' := by
  obtain ⟨d, after, rfl, hd⟩ := head_eq_cons h
  refine ⟨d, rfl, ?_⟩
  rcases hd with hd | rfl | rfl
  · refine ⟨Text.isBlank_eq_false_of_isAlpha hd, ?_⟩
    intro hslash
    subst hslash
    exact absurd hd (by decide)
  · exact ⟨by decide, by decide⟩
  · exact ⟨by decide, by decide⟩

theorem trim_head (h : headAndText? content = some (head, text)) : Text.trim head = head := by
  obtain ⟨d, hd, hblank, -⟩ := head?_head h
  refine Text.trim_eq_self ?_ ?_
  · intro c hc
    rw [hd, Option.some.injEq] at hc
    rwa [← hc]
  · intro c hc
    obtain ⟨scanned, b, rest, hscan, rfl, hremainder, -⟩ := headAndText?_eq_some h
    exact Head.getLast?_text_not_isBlank hscan (by simp [hremainder]) hc

/-! ## Lines in place of another -/

theorem eq_space_of_mem_margin {c : Char} (h : c ∈ line.margin) : c = ' ' := by
  rw [NumberedLine.margin] at h
  simpa using List.mem_takeWhile_imp h

theorem eq_space_of_mem_margin_indent {layout : Layout} {c : Char}
    (h : c ∈ line.margin ++ layout.indent 1) : c = ' ' := by
  rcases List.mem_append.1 h with h | h
  · exact eq_space_of_mem_margin h
  · exact List.eq_of_mem_replicate h

theorem content_isInfix (line : NumberedLine) : line.content <:+: line.text :=
  Text.trim_isInfix _

/-- Spaces before a text do not show in its content. -/
theorem trim_spaces_left {indent : Text} (h : ∀ c ∈ indent, c = ' ') (text : Text) :
    Text.trim (indent ++ text) = Text.trim text := by
  refine Text.trim_append_of_isBlank_left ?_ text
  intro c hc
  rw [h c hc]
  decide

/-- A line that a repair writes in place of another: its bare head, or some text of it behind a
bar. -/
inductive IsWritten (source : NumberedLine) : NumberedLine → Prop where
  | bare {number : Nat} {head text : Text}
      (h : headAndText? source.content = some (head, text)) :
      IsWritten source ⟨number, source.margin ++ head⟩
  | piped {number : Nat} {indent text : Text} (hindent : ∀ c ∈ indent, c = ' ')
      (htext : text <:+: source.text) : IsWritten source (pipeLine number indent text)

theorem content_bare {source : NumberedLine} {number : Nat}
    (h : headAndText? source.content = some (head, text)) :
    (NumberedLine.mk number (source.margin ++ head)).content = head := by
  rw [NumberedLine.content, trim_spaces_left (fun _ => eq_space_of_mem_margin), trim_head h]

theorem head?_content_pipeLine {number : Nat} {indent : Text} (h : ∀ c ∈ indent, c = ' ')
    (text : Text) : (pipeLine number indent text).content.head? = some '|' := by
  rw [NumberedLine.content, pipeLine, List.append_assoc, trim_spaces_left h]
  exact Text.head?_trim_cons (by decide) _

namespace IsWritten

variable {source : NumberedLine}

/-- A line that was written is no element with text. -/
theorem headAndText?_eq_none (h : IsWritten source line) : headAndText? line.content = none := by
  cases h with
  | bare h =>
    rw [content_bare h]
    exact headAndText?_head h
  | piped hindent htext =>
    exact headAndText?_eq_none_of_head? (head?_content_pipeLine hindent _) (by decide)
      (by decide) (by decide)

/-- A line that was written does not begin with a slash. -/
theorem head?_ne_slash (h : IsWritten source line) : line.content.head? ≠ some '/' := by
  cases h with
  | bare h =>
    obtain ⟨d, hd, -, hslash⟩ := head?_head h
    rw [content_bare h, hd]
    exact fun hsome => hslash (Option.some.inj hsome)
  | piped hindent htext =>
    rw [head?_content_pipeLine hindent]
    decide

/-- A line is written with characters of the line that it stands for, spaces and bars. -/
theorem mem_text (h : IsWritten source line) {c : Char} (hc : c ∈ line.text) :
    c = ' ' ∨ c = '|' ∨ c ∈ source.text := by
  cases h with
  | bare h =>
    rcases List.mem_append.1 hc with hc | hc
    · exact Or.inl (eq_space_of_mem_margin hc)
    · obtain ⟨b, rest, hcontent, -⟩ := eq_append_of_headAndText? h
      have hmem : c ∈ source.content := by
        rw [hcontent]
        exact List.mem_append_left _ hc
      exact Or.inr (Or.inr (Text.mem_of_mem_trim hmem))
  | piped hindent htext =>
    rw [pipeLine, List.append_assoc, List.mem_append, List.mem_append] at hc
    rcases hc with hc | hc | hc
    · exact Or.inl (hindent c hc)
    · have hbar : c = '|' ∨ c = ' ' := by simpa using hc
      rcases hbar with hbar | hspace
      · exact Or.inr (Or.inl hbar)
      · exact Or.inl hspace
    · exact Or.inr (Or.inr (htext.subset hc))

end IsWritten

theorem slashBehindHead?_eq_none (h : headAndText? content = none) :
    slashBehindHead? content = none := by
  rw [slashBehindHead?, h]
  rfl

theorem pipeSlash?_eq_none_iff {layout : Layout} :
    pipeSlash? layout line = none ↔
      slashBehindHead? line.content = none ∧ isSlashText line.content = false := by
  rw [pipeSlash?]
  cases slashBehindHead? line.content with
  | none => cases isSlashText line.content <;> simp
  | some behind => simp

/-- A line that is repaired has text behind its head, or it is text. -/
theorem pipeSlash?_eq_some {layout : Layout} {repaired : List NumberedLine}
    (h : pipeSlash? layout line = some repaired) :
    (∃ head text, slashBehindHead? line.content = some (head, text) ∧
      headAndText? line.content = some (head, text) ∧
      repaired = [⟨line.number, line.margin ++ head⟩,
        pipeLine line.number (line.margin ++ layout.indent 1) text]) ∨
    (slashBehindHead? line.content = none ∧ line.content.head? = some '/' ∧
      repaired = [pipeLine line.number line.margin line.content]) := by
  rw [pipeSlash?] at h
  split at h
  · next head text hbehind =>
    exact Or.inl ⟨head, text, hbehind, (Option.filter_eq_some_iff.1 hbehind).1,
      (Option.some.inj h).symm⟩
  · next hnone =>
    split at h
    · next hslash =>
      rw [isSlashText, Bool.and_eq_true, decide_eq_true_eq] at hslash
      exact Or.inr ⟨hnone, hslash.1, (Option.some.inj h).symm⟩
    · cases h

/-- Slashes are not repaired in a line that was written. -/
theorem IsWritten.pipeSlash?_eq_none {source : NumberedLine} {layout : Layout}
    (h : IsWritten source line) : pipeSlash? layout line = none := by
  refine pipeSlash?_eq_none_iff.2 ⟨slashBehindHead?_eq_none h.headAndText?_eq_none, ?_⟩
  rw [isSlashText, decide_eq_false h.head?_ne_slash, Bool.false_and]

/-- A line after a repair: one of the lines before it, or one written in place of such a line. -/
inductive StandsFor (lines : List NumberedLine) (line : NumberedLine) : Prop where
  | kept (h : line ∈ lines)
  | written {source : NumberedLine} (hsource : source ∈ lines) (h : IsWritten source line)

theorem StandsFor.mono {lines lines' : List NumberedLine} (h : StandsFor lines line)
    (hsub : lines ⊆ lines') : StandsFor lines' line := by
  cases h with
  | kept h => exact kept (hsub h)
  | written hsource h => exact written (hsub hsource) h

/-- A repair writes no characters but spaces and bars that were not there. -/
theorem not_mem_of_standsFor {lines lines' : List NumberedLine} {c : Char} (hspace : c ≠ ' ')
    (hbar : c ≠ '|') (h : ∀ line ∈ lines, c ∉ line.text)
    (hfor : ∀ line ∈ lines', StandsFor lines line) : ∀ line ∈ lines', c ∉ line.text := by
  intro line hline
  cases hfor line hline with
  | kept hmem => exact h line hmem
  | @written source hsource hwritten =>
    intro hc
    rcases hwritten.mem_text hc with hc | hc | hc
    · exact hspace hc
    · exact hbar hc
    · exact h source hsource hc

/-- The lines hold no characters that end a line. -/
def IsUnbroken (lines : List NumberedLine) : Prop :=
  ∀ line ∈ lines, '\n' ∉ line.text ∧ '\r' ∉ line.text

/-! ## Bare heads among other lines -/

theorem isLatinLetter_eq_false_of_isBlank {c : Char} (h : Text.isBlank c = true) :
    isLatinLetter c = false := by
  by_contra hletter
  rw [Bool.not_eq_false, isLatinLetter, Bool.or_eq_true, Bool.or_eq_true] at hletter
  rcases hletter with (hc | hc) | hc
  · exact absurd ((Text.isBlank_eq_false_of_isAlpha hc).symm.trans h) Bool.false_ne_true
  all_goals
    rw [beq_iff_eq] at hc
    subst hc
    exact absurd h (by decide)

theorem startsMarkedTag_append_cons {c d : Char} {after rest : Text}
    (hc : Text.isBlank c = true) :
    startsMarkedTag (d :: after ++ c :: rest) = startsMarkedTag (d :: after) := by
  have hletter := isLatinLetter_eq_false_of_isBlank hc
  obtain ⟨hid, hclass, hopen⟩ := Head.ne_sign_of_isBlank hc
  -- Where only letters stand before the blank, the blank is no sign of a mark.
  rw [startsMarkedTag, startsMarkedTag, Text.dropWhile_append_cons_of_neg hletter]
  cases List.dropWhile isLatinLetter (d :: after) with
  | nil => simp [hid, hclass, hopen]
  | cons e more => rfl

/-- A bare head is markup exactly if the line is. -/
theorem isMarkup_head (h : headAndText? content = some (head, text)) :
    isMarkup head = isMarkup content := by
  obtain ⟨c, rest, rfl, hc, -⟩ := eq_append_of_headAndText? h
  obtain ⟨d, after, rfl, -⟩ := head_eq_cons h
  rw [isMarkup, isMarkup, startsMarkedTag_append_cons hc]
  rfl

theorem margin_bare {source : NumberedLine} {number : Nat}
    (h : headAndText? source.content = some (head, text)) :
    (NumberedLine.mk number (source.margin ++ head)).margin = source.margin := by
  obtain ⟨d, after, rfl, -⟩ := head_eq_cons h
  obtain ⟨e, he, hblank, -⟩ := head?_head h
  have hd : d ≠ ' ' := by
    rintro rfl
    rw [List.head?_cons, Option.some.injEq] at he
    rw [← he] at hblank
    exact absurd hblank (by decide)
  have hspaces : ∀ c ∈ source.margin, decide (c = ' ') = true :=
    fun c hc => decide_eq_true (eq_space_of_mem_margin hc)
  have hnone : (d :: after).takeWhile (· = ' ') = [] := List.takeWhile_cons_of_neg (by simpa)
  show (source.margin ++ d :: after).takeWhile (· = ' ') = source.margin
  rw [List.takeWhile_append_of_pos hspaces, hnone, List.append_nil]

/-- A bare head is text below an element exactly if its line was. -/
theorem isTextBelow_bare {source : NumberedLine} {number : Nat} (depth : Nat)
    (h : headAndText? source.content = some (head, text)) :
    isTextBelow depth ⟨number, source.margin ++ head⟩ = isTextBelow depth source := by
  rw [isTextBelow, isTextBelow, margin_bare h, content_bare h, isMarkup_head h]

theorem isTextBelow_of_le {depth depth' : Nat} (h : isTextBelow depth line = false)
    (hle : depth ≤ depth') : isTextBelow depth' line = false := by
  rw [isTextBelow, Bool.and_eq_false_iff, decide_eq_false_iff_not] at h ⊢
  exact h.imp_left fun hdepth => by omega

theorem isTextBelow_of_startsWithSign (h : startsWithSign line.content = true) (depth : Nat) :
    isTextBelow depth line = false := by
  rw [isTextBelow, isMarkup, h]
  simp

theorem isTextBelow_of_bar (h : line.content.head? = some '|') (depth : Nat) :
    isTextBelow depth line = false := by
  obtain ⟨rest, hcontent⟩ := List.head?_eq_some_iff.1 h
  apply isTextBelow_of_startsWithSign
  rw [hcontent]
  rfl

end SlimTemplate.Repair
