import SlimTemplate.Proofs.Directive.CodeBlock
import SlimTemplate.Proofs.Text.Lines
import SlimTemplate.Proofs.Writer.Flush

/-!
# Blocks of code written as Slim

A block of code travels as one comment, and the writer puts its lines one level below a line
`ruby:`. Blank lines and the blanks at the ends of lines are lost on the way, wherever the trimming
of the passes, of the comment or of the writer takes them, and the indentation that all lines share.
Nothing else is: every line keeps its indentation relative to the others.

## Main definitions

* `Writer.codeRows`: the lines that are written.
* `Directive.IsCodeBlock`: lines that a block of code can hold.

## Main statements

* `Writer.codeRows_linesOfCode`: trimming the code does not change the lines that are written.
* `Directive.toMarkup_codeBlock`: a block of code keeps its lines and their indentation.
-/

namespace SlimTemplate

namespace Writer

open Text (isBlank splitOn)

/-! ## The lines that are written -/

/-- The lines that are not blank, without the blanks at their ends. -/
def codeRows (lines : List Text) : List Text :=
  (lines.filter fun line => !(Text.trim line).isEmpty).map Text.trimEnd

variable {lines : List Text}

theorem codeRows_eq (lines : List Text) :
    codeRows lines = (lines.map Text.trimEnd).filter fun line => !line.isEmpty := by
  have hempty : ∀ line, (Text.trimEnd line).isEmpty = (Text.trim line).isEmpty := by
    intro line
    rw [Bool.eq_iff_iff, List.isEmpty_iff, List.isEmpty_iff, Text.trimEnd_eq_nil_iff,
      Text.trim_eq_nil_iff]
  rw [List.filter_map, codeRows]
  congr 2
  funext line
  exact congrArg (!·) (hempty line).symm

theorem codeRows_append (a b : List Text) : codeRows (a ++ b) = codeRows a ++ codeRows b := by
  rw [codeRows, List.filter_append, List.map_append, ← codeRows, ← codeRows]

theorem codeRows_eq_nil (h : ∀ line ∈ lines, ∀ c ∈ line, isBlank c = true) :
    codeRows lines = [] := by
  rw [codeRows, List.map_eq_nil_iff, List.filter_eq_nil_iff]
  intro line hline
  simp [Text.trim_eq_nil_iff.2 (h line hline)]

theorem codeRows_singleton_append (line : Text) {blanks : Text}
    (h : ∀ c ∈ blanks, isBlank c = true) : codeRows [line ++ blanks] = codeRows [line] := by
  rw [codeRows_eq, codeRows_eq, List.map_singleton, List.map_singleton,
    Text.trimEnd_append_of_isBlank h]

/-- Line breaks before a text begin no line that is written. -/
theorem codeRows_splitOn_breaks {breaks : Text} (h : ∀ c ∈ breaks, c = '\n') (text : Text) :
    codeRows (splitOn '\n' (breaks ++ text)) = codeRows (splitOn '\n' text) := by
  induction breaks with
  | nil => rfl
  | cons c breaks ih =>
    obtain ⟨rfl, hbreaks⟩ := List.forall_mem_cons.1 h
    rw [List.cons_append, splitOn, if_pos rfl, ← ih hbreaks]
    rfl

/-- Blanks behind a text add no line that is written. -/
theorem codeRows_splitOn_blanks (text : Text) {blanks : Text} (h : ∀ c ∈ blanks, isBlank c = true) :
    codeRows (splitOn '\n' (text ++ blanks)) = codeRows (splitOn '\n' text) := by
  have hparts : ∀ part ∈ splitOn '\n' blanks, ∀ c ∈ part, isBlank c = true := by
    intro part hpart c hc
    have hmem := Text.mem_unlines hpart hc
    rw [Text.unlines_splitOn] at hmem
    exact h c hmem
  obtain ⟨start, last, htext⟩ : ∃ start last, splitOn '\n' text = start ++ [last] := by
    have hne := Text.splitOn_ne_nil '\n' text
    exact ⟨_, _, (List.dropLast_concat_getLast hne).symm⟩
  obtain ⟨first, more, hblanks⟩ := List.exists_cons_of_ne_nil (Text.splitOn_ne_nil '\n' blanks)
  obtain ⟨hfirst, hmore⟩ := List.forall_mem_cons.1 (hblanks ▸ hparts)
  rw [Text.splitOn_append_of_concat htext hblanks, htext, ← List.singleton_append, codeRows_append,
    codeRows_append, codeRows_append, codeRows_singleton_append last hfirst, codeRows_eq_nil hmore,
    List.append_nil]

/-- An empty last line, which does not count as a line, would not be written. -/
theorem codeRows_endedLines (h : ∀ line ∈ lines, '\r' ∉ line) :
    codeRows (Text.endedLines lines) = codeRows lines := by
  induction lines with
  | nil => rfl
  | cons line more ih =>
    obtain ⟨hline, hmore⟩ := List.forall_mem_cons.1 h
    cases more with
    | nil =>
      rw [Text.endedLines]
      split
      · next hempty =>
        rw [List.isEmpty_iff.1 hempty]
        rfl
      · rfl
    | cons next more =>
      have hended : Text.endedLines (line :: next :: more) =
          [line] ++ Text.endedLines (next :: more) := by
        rw [Text.endedLines, Text.dropFinalReturn_of_not_mem hline]
        · rfl
        · exact List.cons_ne_nil next more
      rw [hended, codeRows_append, ih hmore, ← codeRows_append]
      rfl

/-- Trimming the code does not change the lines that are written. -/
theorem codeRows_linesOfCode {text : Text} (hreturn : '\r' ∉ text) :
    codeRows (Text.lines (Directive.linesOfCode text)) = codeRows (splitOn '\n' text) := by
  obtain ⟨breaks, blanks, htext, hbreaks, hblanks⟩ := Directive.exists_linesOfCode text
  have hfeeds : ∀ c ∈ breaks, c = '\n' := by
    intro c hc
    refine (hbreaks c hc).resolve_left ?_
    rintro rfl
    rw [htext] at hreturn
    exact hreturn (List.mem_append_left _ (List.mem_append_left _ hc))
  have hlines : ∀ line ∈ splitOn '\n' (Directive.linesOfCode text), '\r' ∉ line := by
    intro line hline hc
    have hcode := Text.mem_unlines hline hc
    rw [Text.unlines_splitOn] at hcode
    exact hreturn (Directive.mem_of_mem_linesOfCode hcode)
  conv_rhs => rw [htext]
  rw [codeRows_splitOn_blanks _ hblanks, codeRows_splitOn_breaks hfeeds, Text.lines,
    codeRows_endedLines hlines]

/-! ## The indentation that is shared -/

/-- The indentation that lines share. -/
def sharedGap (rows : List Text) : Nat :=
  ((rows.map leadingGap).min?).getD 0

theorem flushLines_eq (code : Text) :
    flushLines code = (codeRows (Text.lines code)).map fun row =>
      row.drop (sharedGap (codeRows (Text.lines code))) := by
  rw [codeRows_eq]
  rfl

/-- The shared indentation is that of a line, and no line has less. -/
theorem sharedGap_spec {rows : List Text} (hne : rows ≠ []) :
    (∀ row ∈ rows, sharedGap rows ≤ leadingGap row) ∧
      ∃ row ∈ rows, leadingGap row = sharedGap rows := by
  cases hmin : (rows.map leadingGap).min? with
  | none =>
    rw [List.min?_eq_none_iff, List.map_eq_nil_iff] at hmin
    exact absurd hmin hne
  | some least =>
    obtain ⟨hmem, hle⟩ := List.min?_eq_some_iff.1 hmin
    rw [sharedGap, hmin, Option.getD_some]
    exact ⟨fun row hrow => hle _ (List.mem_map_of_mem hrow), List.mem_map.1 hmem⟩

/-- Leaving out indentation leaves the rest of it. -/
theorem leadingGap_drop {n : Nat} {row : Text} (h : n ≤ leadingGap row) :
    leadingGap row = n + leadingGap (row.drop n) := by
  induction n generalizing row with
  | zero => rw [List.drop_zero, Nat.zero_add]
  | succ n ih =>
    cases row with
    | nil => exact absurd h (Nat.not_succ_le_zero n)
    | cons c row =>
      by_cases hc : (c = ' ' || c = '\t') = true
      · have hgap : leadingGap (c :: row) = leadingGap row + 1 := by
          rw [leadingGap, List.takeWhile_cons, if_pos hc, List.length_cons, leadingGap]
        rw [hgap] at h ⊢
        rw [List.drop_succ_cons, ih (Nat.le_of_succ_le_succ h)]
        omega
      · rw [leadingGap, List.takeWhile_cons, if_neg hc] at h
        exact absurd h (Nat.not_succ_le_zero n)

end Writer

/-! ## Whole blocks -/

namespace Directive

open Writer (codeRows leadingGap sharedGap)

variable {lines : List Text}

/-- Lines that a block of code can hold and a comment gives back. -/
structure IsCodeBlock (lines : List Text) : Prop where
  visible : ∃ line ∈ lines, Text.trim line ≠ []
  plain : ∀ line ∈ lines, ∀ c ∈ line, c ≠ '<' ∧ c ≠ '%' ∧ c ≠ '\r' ∧ c ≠ '\n'
  not_standIn : ¬"__SLIM_ARROW".toList <:+: Text.unlines lines
  /-- The label of the comment ends in the colon that a request for indentation begins with. -/
  not_endsInIndent : ¬EndsInIndent (':' :: Text.trim (Text.unlines lines))

namespace IsCodeBlock

variable (h : IsCodeBlock lines)
include h

theorem not_mem_unlines {c : Char} (hc : c = '<' ∨ c = '%' ∨ c = '\r') :
    c ∉ Text.unlines lines := by
  intro hmem
  rcases Text.mem_joinWith hmem with hmem | ⟨line, hline, hmem⟩
  · obtain rfl := List.mem_singleton.1 hmem
    exact absurd hc (by decide)
  · obtain ⟨hlt, hpercent, hreturn, -⟩ := h.plain line hline c hmem
    exact hc.elim hlt fun hc => hc.elim hpercent hreturn

theorem ne_nil : lines ≠ [] := by
  rintro rfl
  obtain ⟨line, hline, -⟩ := h.visible
  cases hline

theorem codeRows_ne_nil : codeRows lines ≠ [] := by
  obtain ⟨line, hline, hvisible⟩ := h.visible
  rw [codeRows, ne_eq, List.map_eq_nil_iff, List.filter_eq_nil_iff]
  intro hnone
  refine hnone line hline ?_
  simpa using hvisible

/-- The comment of a block of code holds its lines. -/
theorem codeRows_linesOfCode :
    codeRows (Text.lines (linesOfCode (Text.unlines lines))) = codeRows lines := by
  have hfeed : ∀ line ∈ lines, '\n' ∉ line := fun line hline hmem =>
    (h.plain line hline '\n' hmem).2.2.2 rfl
  rw [Writer.codeRows_linesOfCode (h.not_mem_unlines (.inr (.inr rfl))),
    Text.splitOn_unlines_of_ne_nil h.ne_nil hfeed]

theorem toMarkup_eq : toMarkup ("<%\n".toList ++ Text.unlines lines ++ "\n%>".toList) =
    encode .codeLines (linesOfCode (Text.unlines lines)) := by
  have hplain : IsPlain (Text.unlines lines) :=
    ⟨h.not_mem_unlines (.inl rfl), h.not_mem_unlines (.inr (.inl rfl))⟩
  have hsource : "<%\n".toList ++ Text.unlines lines ++ "\n%>".toList =
      delimited ('\n' :: (Text.unlines lines ++ ['\n'])) := by
    simp [delimited]
  rw [hsource, toMarkup_codeLines hplain (h.not_mem_unlines (.inr (.inr rfl)))]

/-- What the writer makes of the comment. -/
theorem nodeEntries_eq (depth : Nat) :
    Writer.nodeEntries depth
        (.comment (commentData .codeLines (linesOfCode (Text.unlines lines)))) =
      ⟨depth, "ruby:".toList⟩ :: (codeRows lines).map fun row =>
        ⟨depth + 1, row.drop (sharedGap (codeRows lines))⟩ := by
  have hkind : CommentKind.codeLines ≠ .stop := by decide
  have hcode := isRestorable_linesOfCode h.not_standIn h.not_endsInIndent
  have hdecode := hcode.decode_eq hkind
  have hindent := not_endsInIndent_commentData hkind hcode.last hcode.not_endsInIndent
  rw [Writer.nodeEntries, Writer.commentEntries_of_codeLines depth hindent (by rw [hdecode]),
    hdecode, Writer.flushLines_eq, h.codeRows_linesOfCode, List.map_map]
  rfl

end IsCodeBlock

/-- A block of code becomes a single comment. At any depth the writer makes of it a line `ruby:`
and, one level deeper, the lines that are not blank, in order and without the blanks at their ends.
The same number of leading blanks is left out of each, so that they keep their indentation relative
to one another, and one of them has none left. -/
theorem toMarkup_codeBlock (h : IsCodeBlock lines) : ∃ data shared,
    toMarkup ("<%\n".toList ++ Text.unlines lines ++ "\n%>".toList) =
      "<!--".toList ++ data ++ "-->".toList ∧
    ¬"-->".toList <:+: data ∧
    (∀ depth, Writer.nodeEntries depth (.comment data) =
      ⟨depth, "ruby:".toList⟩ :: (codeRows lines).map fun row => ⟨depth + 1, row.drop shared⟩) ∧
    (∀ row ∈ codeRows lines, leadingGap row = shared + leadingGap (row.drop shared)) ∧
    ∃ row ∈ codeRows lines, leadingGap (row.drop shared) = 0 := by
  obtain ⟨hle, least, hleast, heq⟩ := Writer.sharedGap_spec h.codeRows_ne_nil
  have hrest : ∀ row ∈ codeRows lines, leadingGap row =
      sharedGap (codeRows lines) + leadingGap (row.drop (sharedGap (codeRows lines))) :=
    fun row hrow => Writer.leadingGap_drop (hle row hrow)
  refine ⟨commentData .codeLines (linesOfCode (Text.unlines lines)), sharedGap (codeRows lines),
    h.toMarkup_eq, not_isInfix_arrow_commentData _ _, h.nodeEntries_eq, hrest, least, hleast, ?_⟩
  have hflush := hrest least hleast
  omega

/-- Lines with blank ones between and around them, with blanks at their ends, tabs and arrows. -/
def steppedLines : List Text :=
  [[], "  \t".toList, "    if a--->b  ".toList, [], "\t  c '-->'".toList, "   f :INDENT:2x ".toList,
    " ".toList]

/-- The block keeps their indentation but for what they share. -/
theorem toMarkup_codeBlock_stepped : ∃ data,
    toMarkup ("<%\n".toList ++ Text.unlines steppedLines ++ "\n%>".toList) =
      "<!--".toList ++ data ++ "-->".toList ∧
    Writer.nodeEntries 1 (.comment data) =
      [⟨1, "ruby:".toList⟩, ⟨2, " if a--->b".toList⟩, ⟨2, "c '-->'".toList⟩,
        ⟨2, "f :INDENT:2x".toList⟩] := by
  have hplain : ∀ line ∈ steppedLines,
      (line.all fun c => decide (c ≠ '<' ∧ c ≠ '%' ∧ c ≠ '\r' ∧ c ≠ '\n')) = true := by
    decide
  have h : IsCodeBlock steppedLines :=
    ⟨by decide, fun line hline => Text.forall_of_all (hplain line hline), by decide,
      not_endsInIndent (by decide)⟩
  obtain ⟨data, shared, hdata, -, hentries, hgaps, row, hrow, hflush⟩ := toMarkup_codeBlock h
  have hshared : shared = 3 := by
    have hleast : ∀ row ∈ codeRows steppedLines, 3 ≤ leadingGap row := by decide
    have hgap : leadingGap "\t  c '-->'".toList = 3 := by decide
    have hat := hgaps "\t  c '-->'".toList (by decide)
    have hof := hgaps row hrow
    have hle := hleast row hrow
    omega
  refine ⟨data, hdata, (hentries 1).trans ?_⟩
  rw [hshared]
  decide

end Directive

end SlimTemplate
