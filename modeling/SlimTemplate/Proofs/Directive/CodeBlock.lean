import SlimTemplate.Proofs.Directive.Comment
import SlimTemplate.Proofs.Directive.Piecewise

/-!
# Blocks of code

Code on lines of its own, between delimiters on lines of their own, is read up to the line break
before the closing delimiter, because no earlier line break has a delimiter behind it. The first
pass after the tags makes one comment of it, and what this comment holds is the code without the
line breaks before it and the blanks behind it.

## Main statements

* `Directive.toMarkup_codeLines`: the passes make one comment of a block of code.
* `Directive.exists_linesOfCode`: what is left out of the code.
* `Directive.isRestorable_linesOfCode`: the code comes out of the comment as it went in.
-/

namespace SlimTemplate.Directive

variable {text : Text}

/-! ## Reading -/

theorem close?_append_eq_none (h : '%' ∉ text) (rest : Text) :
    close? (text ++ '\n' :: rest) = none := by
  cases text with
  | nil => rfl
  | cons c text =>
    have hc : c ≠ '%' := fun heq => h (heq ▸ List.mem_cons_self)
    cases text with
    | nil => simp [close?, hc]
    | cons d text =>
      have hd : d ≠ '%' := fun heq => h (heq ▸ List.mem_cons_of_mem c List.mem_cons_self)
      simp [close?, hc, hd]

/-- No line break within the code has the closing delimiter behind it. -/
theorem closeOnLine?_append_eq_none {c : Char} (hreturn : c ≠ '\r') (h : '%' ∉ text) (rest : Text) :
    closeOnLine? (c :: (text ++ '\n' :: rest)) = none := by
  by_cases hfeed : c = '\n'
  · have hgap : '%' ∉ text.dropWhile fun d => d = ' ' || d = '\t' :=
      fun hmem => h ((List.dropWhile_sublist _).subset hmem)
    have hclose := close?_append_eq_none hgap rest
    rw [hfeed, closeOnLine?, lineEnd?]
    simp only [andThen, gap?, Option.bind_some]
    rw [Text.dropWhile_append_cons_of_neg (by decide), hclose]
    rfl
  · have hnone : lineEnd? (c :: (text ++ '\n' :: rest)) = none := by
      simp [lineEnd?, hfeed, hreturn]
    rw [closeOnLine?, hnone]
    rfl

/-- The code is read up to the last line break before the closing delimiter. -/
theorem readBody?_closeOnLine? (h : '%' ∉ text) (hreturn : '\r' ∉ text) (rest : Text) :
    readBody? closeOnLine? (text ++ '\n' :: '%' :: '>' :: rest) =
      some (text, "\n%>".toList, rest) := by
  induction text with
  | nil => exact readBody?_of_close rfl
  | cons c text ih =>
    obtain ⟨hc, htext⟩ := not_or.1 (mt List.mem_cons.2 h)
    obtain ⟨hcr, hrest⟩ := not_or.1 (mt List.mem_cons.2 hreturn)
    have hclose := closeOnLine?_append_eq_none (Ne.symm hcr) htext ('%' :: '>' :: rest)
    rw [List.cons_append, readBody?_cons hclose (Ne.symm hc), ih htext hrest]
    rfl

/-- The directive of a block of code. -/
def ofLines (text : Text) : Directive :=
  ⟨"<%\n".toList, none, text, "\n%>".toList⟩

theorem read?_codeLines (h : '%' ∉ text) (hreturn : '\r' ∉ text) :
    read? .codeLines (delimited ('\n' :: (text ++ ['\n']))) = some (ofLines text, []) := by
  have hdelimited : delimited ('\n' :: (text ++ ['\n'])) =
      '<' :: '%' :: '\n' :: (text ++ '\n' :: '%' :: '>' :: []) := by
    simp [delimited]
  have hopen : Shape.codeLines.open? ('<' :: '%' :: '\n' :: (text ++ '\n' :: '%' :: '>' :: [])) =
      some ("<%\n".toList, text ++ '\n' :: '%' :: '>' :: []) := rfl
  have hbody := readBody?_closeOnLine? h hreturn []
  rw [hdelimited, read?, hopen]
  simp only [Shape.close?, hbody]
  rfl

/-- What the pass for blocks of lines reads becomes one comment. -/
theorem toMarkup_of_read?_codeLines {inner : Text} (h : IsPlain inner) {d : Directive}
    (hread : read? .codeLines (delimited inner) = some (d, [])) (hpercent : '%' ∉ d.body) :
    toMarkup (delimited inner) = encode .codeLines (linesOfCode d.body) := by
  have hpass : Pass.codeLines.rewrite (delimited inner) =
      encode .codeLines (linesOfCode d.body) := by
    show replaceEach .codeLines codeLinesMarkup _ = _
    rw [replaceEach_of_read? hread, replaceEach, List.append_nil]
    rfl
  have hcode : '%' ∉ linesOfCode d.body := fun hmem => hpercent (mem_of_mem_linesOfCode hmem)
  rw [toMarkup_delimited h, rewrite, Pass.rewriting, List.foldl_cons, hpass]
  exact foldl_rewrite_of_isMarkup (encode_isMarkup _ hcode) _

/-- A block of code becomes one comment. -/
theorem toMarkup_codeLines (h : IsPlain text) (hreturn : '\r' ∉ text) :
    toMarkup (delimited ('\n' :: (text ++ ['\n']))) = encode .codeLines (linesOfCode text) := by
  have hplain : IsPlain ('\n' :: (text ++ ['\n'])) := by
    simpa [IsPlain] using h
  exact toMarkup_of_read?_codeLines hplain (read?_codeLines h.2 hreturn) h.2

/-! ## What the comment holds -/

/-- Line breaks before the code and blanks behind it are left out. -/
theorem exists_linesOfCode (text : Text) : ∃ breaks blanks,
    text = breaks ++ linesOfCode text ++ blanks ∧
      (∀ c ∈ breaks, c = '\r' ∨ c = '\n') ∧ ∀ c ∈ blanks, Text.isBlank c = true := by
  refine ⟨(Text.trimEnd text).takeWhile fun c => c = '\r' || c = '\n', text.rtakeWhile Text.isBlank,
    ?_, fun c hc => ?_, fun c hc => List.mem_rtakeWhile_imp hc⟩
  · rw [linesOfCode, List.takeWhile_append_dropWhile, Text.trimEnd_append_rtakeWhile]
  · simpa using List.mem_takeWhile_imp hc

theorem trim_linesOfCode (text : Text) : Text.trim (linesOfCode text) = Text.trim text := by
  obtain ⟨breaks, blanks, htext, hbreaks, hblanks⟩ := exists_linesOfCode text
  have hbreaks' : ∀ c ∈ breaks, Text.isBlank c = true := by
    intro c hc
    rcases hbreaks c hc with rfl | rfl
    · decide
    · decide
  conv_rhs => rw [htext]
  rw [Text.trim_append_of_isBlank_right hblanks, Text.trim_append_of_isBlank_left hbreaks']

theorem getLast?_linesOfCode {c : Char} (hc : (linesOfCode text).getLast? = some c) :
    Text.isBlank c = false := by
  obtain ⟨before, hbefore⟩ : linesOfCode text <:+ Text.trimEnd text := List.dropWhile_suffix _
  have htrimmed : (Text.trimEnd text).getLast? = some c := by
    rw [← hbefore, List.getLast?_append, hc, Option.some_or]
  exact Text.getLast?_trimEnd_not_isBlank htrimmed

/-- The indentation of the first line is all that trimming takes off the code. -/
theorem exists_linesOfCode_trim (text : Text) :
    ∃ gap, linesOfCode text = gap ++ Text.trim text ∧ ∀ c ∈ gap, Text.isBlank c = true := by
  refine ⟨(linesOfCode text).takeWhile Text.isBlank, ?_, fun c hc => List.mem_takeWhile_imp hc⟩
  have hcolon : Text.trim ([':'] ++ linesOfCode text) = [':'] ++ linesOfCode text :=
    trim_colon_cons fun _ => getLast?_linesOfCode
  rw [← trim_linesOfCode, Text.trim_eq_trimStart hcolon, Text.trimStart,
    List.takeWhile_append_dropWhile]

/-- Behind the colon of the label the code ends in a request for deeper indentation only if it does
when it is trimmed. -/
theorem endsInIndent_of_linesOfCode (h : EndsInIndent (':' :: linesOfCode text)) :
    EndsInIndent (':' :: Text.trim text) := by
  obtain ⟨before, digits, htrim, hne, hdigits⟩ := h
  obtain ⟨gap, hgap, hblank⟩ := exists_linesOfCode_trim text
  have hrequest : ∀ c ∈ indentLabel ++ digits, Text.isBlank c = false := by
    intro c hc
    have hlabel : ∀ c ∈ indentLabel, Text.isBlank c = false :=
      Text.isBlank_eq_false_of_all (by decide)
    exact (List.mem_append.1 hc).elim (hlabel c) fun hdigit =>
      Text.isBlank_eq_false_of_isDecimalDigit (hdigits c hdigit)
  have hsuffix : indentLabel ++ digits <:+ ':' :: Text.trim text := by
    rw [trim_colon_cons fun _ => getLast?_linesOfCode, hgap, List.append_assoc, ← List.cons_append]
      at htrim
    rcases List.append_eq_append_iff.1 htrim with ⟨more, -, hmore⟩ | ⟨more, hbefore, hmore⟩
    · exact ⟨':' :: more, by rw [hmore, List.cons_append]⟩
    · -- A request that began before the trimmed code would hold the last blank of the gap.
      rcases List.eq_nil_or_concat gap with rfl | ⟨gap, c, rfl⟩
      · exact ⟨before, by rw [hmore, ← List.append_assoc, ← hbefore]; rfl⟩
      rcases List.eq_nil_or_concat more with rfl | ⟨more, d, rfl⟩
      · exact ⟨[':'], by rw [hmore]; rfl⟩
      · rw [List.concat_eq_append, List.concat_eq_append, ← List.cons_append, ← List.append_assoc]
          at hbefore
        obtain ⟨-, hlast⟩ := List.append_inj' hbefore rfl
        obtain rfl : c = d := List.singleton_inj.1 hlast
        have hfalse := hrequest c (by rw [hmore]; simp)
        rw [hblank c (by simp)] at hfalse
        cases hfalse
  obtain ⟨start, hstart⟩ := hsuffix
  have htrimmed : Text.trim (':' :: Text.trim text) = ':' :: Text.trim text :=
    trim_colon_cons fun _ => Text.getLast?_trim_not_isBlank
  exact ⟨start, digits, by rw [htrimmed, List.append_assoc, hstart], hne, hdigits⟩

theorem isRestorable_linesOfCode (hstandIn : ¬"__SLIM_ARROW".toList <:+: text)
    (hindent : ¬EndsInIndent (':' :: Text.trim text)) : IsRestorable (linesOfCode text) where
  last _ := getLast?_linesOfCode
  not_standIn hfound := by
    obtain ⟨breaks, blanks, htext, -, -⟩ := exists_linesOfCode text
    exact hstandIn (hfound.trans ⟨breaks, blanks, htext.symm⟩)
  not_endsInIndent := mt endsInIndent_of_linesOfCode hindent

end SlimTemplate.Directive
