import SlimTemplate.Proofs.Directive.CodeBlock
import SlimTemplate.Proofs.Directive.Program

/-!
# Blanks around the code of a directive

The first pass after the tags looks for directives with both delimiters on lines of their own and
makes a comment of whatever code they hold. All later passes look at the trimmed code alone, so the
blanks around the code of any other directive do not count, line breaks included.

## Main definitions

* `Directive.opensLine`, `Directive.closesLine`: whether a delimiter is on a line of its own.
* `Directive.IsLaidOut`: code with blanks around it.

## Main statements

* `Directive.closeOnLine?_append_cons`: where the closing delimiter is found behind blanks.
* `Directive.toMarkup_laidOut`: what becomes of code with blanks around it.
-/

namespace SlimTemplate.Directive

/-! ## Delimiters on lines of their own -/

/-- Whether a character is a space or a tab. -/
def isGap (c : Char) : Bool :=
  c = ' ' || c = '\t'

/-- Whether a character is a part of a line break. -/
def isLineBreak (c : Char) : Bool :=
  c = '\r' || c = '\n'

/-- Whether an opening delimiter before that text is on a line of its own. -/
def opensLine (text : Text) : Bool :=
  (lineBreak? text).isSome

/-- Whether a closing delimiter behind that text is on a line of its own: some line break has
nothing but spaces and tabs behind it. -/
def closesLine : Text → Bool
  | [] => false
  | c :: text => (c = '\n' && text.all isGap) || closesLine text

theorem isBlank_of_isGap {c : Char} (h : isGap c = true) : Text.isBlank c = true := by
  rw [isGap, Bool.or_eq_true, decide_eq_true_eq, decide_eq_true_eq] at h
  rcases h with rfl | rfl <;> decide

theorem isBlank_of_isLineBreak {c : Char} (h : isLineBreak c = true) : Text.isBlank c = true := by
  rw [isLineBreak, Bool.or_eq_true, decide_eq_true_eq, decide_eq_true_eq] at h
  rcases h with rfl | rfl <;> decide

theorem close?_eq_none_of_isBlank {c : Char} (h : Text.isBlank c = true) (text : Text) :
    close? (c :: text) = none := by
  have hpercent : c ≠ '%' := by
    rintro rfl
    exact absurd h (by decide)
  have hdash : c ≠ '-' := by
    rintro rfl
    exact absurd h (by decide)
  simp [close?, hpercent, hdash]

theorem andThen_gap? (text : Text) (more : Text → Reading) :
    andThen (gap? text) more = (more (text.dropWhile isGap)).map fun (part, after) =>
      (text.takeWhile isGap ++ part, after) :=
  rfl

section Blanks

variable {c : Char} (hc : Text.isBlank c = false)
include hc

theorem isGap_eq_false : isGap c = false :=
  Bool.eq_false_iff.2 fun hgap => absurd (hc.symm.trans (isBlank_of_isGap hgap)) (by decide)

/-- A line break at the start of blanks is read without what follows them. -/
theorem lineEnd?_append_cons (blanks rest : Text) :
    lineEnd? (blanks ++ c :: rest) =
      (lineEnd? blanks).map fun (part, more) => (part, more ++ c :: rest) := by
  have hne : c ≠ '\n' ∧ c ≠ '\r' := by
    constructor <;> rintro rfl <;> exact absurd hc (by decide)
  cases blanks with
  | nil => simp [lineEnd?, hne.1, hne.2]
  | cons d blanks =>
    by_cases hfeed : d = '\n'
    · rw [hfeed]
      rfl
    by_cases hreturn : d = '\r'
    · subst hreturn
      cases blanks with
      | nil => simp [lineEnd?, hne.1]
      | cons e blanks =>
        by_cases he : e = '\n'
        · rw [he]
          rfl
        · simp [lineEnd?, he]
    · simp [lineEnd?, hfeed, hreturn]

/-- So is a line break behind spaces and tabs. -/
theorem lineBreak?_append_cons (blanks rest : Text) :
    lineBreak? (blanks ++ c :: rest) =
      (lineBreak? blanks).map fun (part, more) => (part, more ++ c :: rest) := by
  have hgap := isGap_eq_false hc
  rw [lineBreak?, lineBreak?, andThen_gap?, andThen_gap?, Text.takeWhile_append_cons_of_neg hgap,
    Text.dropWhile_append_cons_of_neg hgap, lineEnd?_append_cons hc, Option.map_map, Option.map_map]
  rfl

/-- Only spaces and tabs may stand before a closing delimiter. -/
theorem andThen_gap?_close? {blanks : Text} (hblanks : ∀ d ∈ blanks, Text.isBlank d = true)
    (rest : Text) :
    andThen (gap? (blanks ++ c :: rest)) close? =
      if blanks.all isGap then
        (close? (c :: rest)).map fun (closing, after) => (blanks ++ closing, after)
      else none := by
  have hgap := isGap_eq_false hc
  rw [andThen_gap?, Text.takeWhile_append_cons_of_neg hgap, Text.dropWhile_append_cons_of_neg hgap]
  split
  · next hall =>
    rw [List.all_eq_true] at hall
    rw [List.takeWhile_eq_self_iff.2 hall, List.dropWhile_eq_nil_iff.2 hall, List.nil_append]
  · next hall =>
    cases hdrop : blanks.dropWhile isGap with
    | nil => exact absurd (List.all_eq_true.2 (List.dropWhile_eq_nil_iff.1 hdrop)) hall
    | cons d more =>
      have hd : d ∈ blanks := (List.dropWhile_sublist isGap).subset (hdrop ▸ List.mem_cons_self)
      rw [List.cons_append, close?_eq_none_of_isBlank (hblanks d hd)]
      rfl

/-- A closing delimiter on a line of its own is found at the start of blanks exactly when they begin
with a line break, nothing but spaces and tabs follows that, and the delimiter is behind them. -/
theorem closeOnLine?_append_cons {blanks : Text} (hblanks : ∀ d ∈ blanks, Text.isBlank d = true)
    (rest : Text) :
    closeOnLine? (blanks ++ c :: rest) = (lineEnd? blanks).bind fun (part, more) =>
      if more.all isGap then
        (close? (c :: rest)).map fun (closing, after) => (part ++ (more ++ closing), after)
      else none := by
  rw [closeOnLine?, andThen, lineEnd?_append_cons hc]
  cases hline : lineEnd? blanks with
  | none => rfl
  | some read =>
    obtain ⟨part, more⟩ := read
    have hmore : ∀ d ∈ more, Text.isBlank d = true := fun d hd =>
      hblanks d (isLossless_lineEnd? hline ▸ List.mem_append_right part hd)
    simp only [Option.map_some, Option.bind_some, andThen_gap?_close? hc hmore rest]
    split
    · rw [Option.map_map]
      rfl
    · rfl

end Blanks

/-- Text without line feeds that does not end in a blank begins no line break. -/
theorem lineEnd?_append_eq_none {text : Text} (hne : text ≠ []) (hline : '\n' ∉ text)
    (hlast : ∀ c ∈ text.getLast?, Text.isBlank c = false) (rest : Text) :
    lineEnd? (text ++ rest) = none := by
  match text, hne with
  | [c], _ =>
    have hc := hlast c rfl
    have hne : c ≠ '\n' ∧ c ≠ '\r' := by
      constructor <;> rintro rfl <;> exact absurd hc (by decide)
    simp [lineEnd?, hne.1, hne.2]
  | c :: d :: text, _ =>
    simp only [List.mem_cons, not_or] at hline
    simp [lineEnd?, Ne.symm hline.1, Ne.symm hline.2.1]

/-! ## Reading -/

/-- Code goes on over a text in which nothing closes it. -/
theorem readBody?_append {close? : Text → Reading} {before rest : Text} (hpercent : '%' ∉ before)
    (h : ∀ ending, ending <:+ before → ending ≠ [] → close? (ending ++ rest) = none) :
    readBody? close? (before ++ rest) =
      (readBody? close? rest).map fun (body, more) => (before ++ body, more) := by
  induction before with
  | nil =>
    rw [List.nil_append]
    exact Option.map_id'.symm
  | cons c before ih =>
    obtain ⟨hc, hbefore⟩ := not_or.1 (mt List.mem_cons.2 hpercent)
    have hnone := h (c :: before) List.suffix_rfl (List.cons_ne_nil c before)
    rw [List.cons_append] at hnone ⊢
    rw [readBody?_cons hnone (Ne.symm hc), ih hbefore fun ending hending =>
      h ending (hending.trans (List.suffix_cons c before)), Option.map_map]
    rfl

/-- The closing delimiter is on a line of its own where it is found so behind blanks. -/
theorem closesLine_of_closeOnLine? {blanks closing after : Text}
    (hblanks : ∀ d ∈ blanks, Text.isBlank d = true)
    (h : closeOnLine? (blanks ++ ['%', '>']) = some (closing, after)) :
    closesLine blanks = true ∧ after = [] := by
  have hclose : close? ['%', '>'] = some (['%', '>'], []) := rfl
  have hpercent : Text.isBlank '%' = false := by decide
  rw [closeOnLine?_append_cons hpercent hblanks] at h
  obtain ⟨⟨part, more⟩, hline, h⟩ := Option.bind_eq_some_iff.1 h
  obtain ⟨hall, h⟩ := Option.ite_none_right_eq_some.1 h
  obtain ⟨read, hread, heq⟩ := Option.map_eq_some_iff.1 h
  obtain rfl : (['%', '>'], []) = read := Option.some.inj (hclose.symm.trans hread)
  refine ⟨?_, (Prod.mk.inj heq).2.symm⟩
  unfold lineEnd? at hline
  split at hline
  · obtain ⟨-, rfl⟩ := Prod.mk.inj (Option.some.inj hline)
    simp [closesLine, hall]
  · obtain ⟨-, rfl⟩ := Prod.mk.inj (Option.some.inj hline)
    simp [closesLine, hall]
  · cases hline

/-- Behind blanks code is closed by a delimiter on a line of its own, if at all. -/
theorem readBody?_blanks {blanks : Text} (hblanks : ∀ d ∈ blanks, Text.isBlank d = true) :
    (closesLine blanks = false → readBody? closeOnLine? (blanks ++ ['%', '>']) = none) ∧
      (closesLine blanks = true → ∃ body closing,
        readBody? closeOnLine? (blanks ++ ['%', '>']) = some (body, closing, []) ∧
          body <+: blanks) := by
  induction blanks with
  | nil => exact ⟨fun _ => readBody?_percent rfl, fun h => absurd h Bool.false_ne_true⟩
  | cons d blanks ih =>
    obtain ⟨hd, hrest⟩ := List.forall_mem_cons.1 hblanks
    cases hclose : closeOnLine? (d :: blanks ++ ['%', '>']) with
    | some read =>
      obtain ⟨closing, after⟩ := read
      obtain ⟨hline, rfl⟩ := closesLine_of_closeOnLine? hblanks hclose
      refine ⟨fun hnot => absurd (hline.symm.trans hnot) (by decide), fun _ => ?_⟩
      exact ⟨[], closing, readBody?_of_close hclose, List.nil_prefix⟩
    | none =>
      have hpercent : d ≠ '%' := by
        rintro rfl
        exact absurd hd (by decide)
      have hline : closesLine (d :: blanks) = closesLine blanks := by
        rw [closesLine, Bool.or_eq_right_iff_imp, Bool.and_eq_true, decide_eq_true_eq]
        rintro ⟨rfl, hall⟩
        have hnot : Text.isBlank '%' = false := by decide
        rw [closeOnLine?_append_cons hnot hblanks] at hclose
        simp only [lineEnd?, Option.bind_some, hall, if_true] at hclose
        cases hclose
      rw [List.cons_append] at hclose ⊢
      rw [hline, readBody?_cons hclose hpercent]
      refine ⟨fun hnot => ?_, fun hcloses => ?_⟩
      · rw [(ih hrest).1 hnot]
        rfl
      · obtain ⟨body, closing, hbody, hbegins⟩ := (ih hrest).2 hcloses
        refine ⟨d :: body, closing, ?_, List.cons_prefix_cons.2 ⟨rfl, hbegins⟩⟩
        rw [hbody]
        rfl

/-! ## Code between blanks -/

/-- Code on one line with blanks before and after it. -/
structure IsLaidOut (before code after : Text) : Prop where
  before_blank : ∀ c ∈ before, Text.isBlank c = true
  after_blank : ∀ c ∈ after, Text.isBlank c = true
  trim_eq : Text.trim code = code
  ne_nil : code ≠ []
  plain : IsPlain code
  oneLine : '\n' ∉ code
  /-- Directly behind the opening delimiter no character of the code is the sign of another kind of
  directive. -/
  no_sign : before = [] → code.head? ≠ some '-' ∧ code.head? ≠ some '='
  /-- Directly before the closing delimiter a hyphen would belong to it. -/
  no_hyphen : after = [] → code.getLast? ≠ some '-'

/-- Code with blanks around it between the delimiters of a directive. -/
def laidOut (before code after : Text) : Directive :=
  ⟨"<%".toList, none, before ++ code ++ after, "%>".toList⟩

theorem laidOut_source (before code after : Text) :
    (laidOut before code after).source = delimited (before ++ code ++ after) := by
  simp [laidOut, source, delimited]

namespace IsLaidOut

variable {before code after : Text} (h : IsLaidOut before code after)
include h

theorem head_not_isBlank : ∀ c ∈ code.head?, Text.isBlank c = false := fun c hc => by
  rw [← h.trim_eq] at hc
  exact Text.head?_trim_not_isBlank hc

theorem last_not_isBlank : ∀ c ∈ code.getLast?, Text.isBlank c = false := fun c hc => by
  rw [← h.trim_eq] at hc
  exact Text.getLast?_trim_not_isBlank hc

theorem laidOut_code : (laidOut before code after).code = code := by
  show Text.trim (before ++ code ++ after) = code
  rw [Text.trim_append_of_isBlank_right h.after_blank,
    Text.trim_append_of_isBlank_left h.before_blank, h.trim_eq]

theorem isPlain : IsPlain (before ++ code ++ after) := by
  have hmem : ∀ c, Text.isBlank c = false → c ∉ code → c ∉ before ++ code ++ after := by
    intro c hc hcode
    simp only [List.mem_append, not_or]
    refine ⟨⟨fun hmem => ?_, hcode⟩, fun hmem => ?_⟩
    · exact absurd (hc.symm.trans (h.before_blank c hmem)) Bool.false_ne_true
    · exact absurd (hc.symm.trans (h.after_blank c hmem)) Bool.false_ne_true
  exact ⟨hmem '<' (by decide) h.plain.1, hmem '%' (by decide) h.plain.2⟩

/-- Such code is read without its delimiters, and with the blanks around it. -/
theorem isRead : (laidOut before code after).IsRead where
  sign_eq := .inl rfl
  opening_eq := rfl
  closing_eq := .inl rfl
  plain := h.isPlain
  no_sign _ := by
    show (before ++ code ++ after ++ "%>".toList).head? ≠ some '-' ∧
      (before ++ code ++ after ++ "%>".toList).head? ≠ some '='
    cases before with
    | nil =>
      obtain ⟨c, rest, rfl⟩ := List.exists_cons_of_ne_nil h.ne_nil
      exact h.no_sign rfl
    | cons c before =>
      have hc := h.before_blank c List.mem_cons_self
      constructor <;> exact fun heq => absurd (Option.some.inj heq ▸ hc) (by decide)
  no_hyphen _ := by
    show (before ++ code ++ after).getLast? ≠ some '-'
    rcases List.eq_nil_or_concat after with rfl | ⟨blanks, c, rfl⟩
    · rw [List.append_nil, List.getLast?_append_of_ne_nil _ h.ne_nil]
      exact h.no_hyphen rfl
    · have hc := h.after_blank c (by simp)
      rw [List.concat_eq_append, ← List.append_assoc, List.getLast?_concat]
      exact fun heq => absurd (Option.some.inj heq ▸ hc) (by decide)

/-! ### Blocks of lines -/

theorem close?_code : close? (code ++ (after ++ ['%', '>'])) = none := by
  obtain ⟨c, more, hcode⟩ := List.exists_cons_of_ne_nil h.ne_nil
  have hplain := hcode ▸ h.plain.2
  obtain ⟨hc, hmore⟩ := not_or.1 (mt List.mem_cons.2 hplain)
  -- A hyphen would need the rest of a closing delimiter behind it.
  have hnext : c = '-' → (more ++ (after ++ ['%', '>'])).head? ≠ some '%' := by
    intro hdash
    cases more with
    | cons d more =>
      intro heq
      exact hmore (Option.some.inj heq ▸ List.mem_cons_self)
    | nil =>
      cases after with
      | nil => exact absurd (hcode ▸ hdash ▸ rfl) (h.no_hyphen rfl)
      | cons d after =>
        intro heq
        have hd := h.after_blank d List.mem_cons_self
        rw [Option.some.inj heq] at hd
        exact absurd hd (by decide)
  rw [hcode, List.cons_append]
  unfold close?
  split
  · next heq => exact absurd (List.cons.inj heq).1.symm hc
  · next heq =>
    obtain ⟨hdash, hrest⟩ := List.cons.inj heq
    exact absurd (hrest ▸ rfl) (hnext hdash)
  · rfl

/-- Neither the blanks before the code nor the code itself has a closing delimiter on a line of its
own behind a line break. -/
theorem readBody?_eq {blanks : Text} (hblanks : ∀ c ∈ blanks, Text.isBlank c = true) :
    readBody? closeOnLine? (blanks ++ (code ++ (after ++ ['%', '>']))) =
      (readBody? closeOnLine? (after ++ ['%', '>'])).map fun (body, more) =>
        (blanks ++ (code ++ body), more) := by
  have hpercent : '%' ∉ blanks := fun hmem => absurd (hblanks _ hmem) (by decide)
  rw [readBody?_append hpercent, readBody?_append h.plain.2, Option.map_map]
  · rfl
  · intro ending hending hne
    have hline : '\n' ∉ ending := fun hmem => h.oneLine (hending.subset hmem)
    have hlast : ∀ c ∈ ending.getLast?, Text.isBlank c = false := by
      intro c hc
      obtain ⟨start, hstart⟩ := hending
      refine h.last_not_isBlank c ?_
      rwa [← hstart, List.getLast?_append_of_ne_nil _ hne]
    rw [closeOnLine?, lineEnd?_append_eq_none hne hline hlast]
    rfl
  · intro ending hending _
    have hclose := h.close?_code
    obtain ⟨c, more, hcode⟩ := List.exists_cons_of_ne_nil h.ne_nil
    have hc := h.head_not_isBlank c (hcode ▸ rfl)
    rw [hcode, List.cons_append] at hclose ⊢
    rw [closeOnLine?_append_cons hc fun d hd => hblanks d (hending.subset hd), hclose]
    simp

theorem open?_codeLines :
    Shape.codeLines.open? (laidOut before code after).source =
      (lineBreak? before).map fun (part, more) =>
        ("<%".toList ++ part, more ++ (code ++ (after ++ ['%', '>']))) := by
  obtain ⟨c, rest, hcode⟩ := List.exists_cons_of_ne_nil h.ne_nil
  have hc := h.head_not_isBlank c (hcode ▸ rfl)
  have hbreak := lineBreak?_append_cons hc before (rest ++ (after ++ ['%', '>']))
  rw [← List.cons_append, ← hcode] at hbreak
  rw [laidOut_source, delimited, List.append_assoc, List.append_assoc]
  simp only [Shape.open?, andThen, Option.bind_some, hbreak, Option.map_map]
  rfl

/-- A block of lines needs both delimiters on lines of their own. -/
theorem read?_codeLines_eq_none (hlines : (opensLine before && closesLine after) = false) :
    read? .codeLines (laidOut before code after).source = none := by
  rw [read?, h.open?_codeLines]
  cases hbreak : lineBreak? before with
  | none => rfl
  | some read =>
    obtain ⟨part, more⟩ := read
    have hmore : ∀ c ∈ more, Text.isBlank c = true := fun c hc =>
      h.before_blank c (isLossless_lineBreak? hbreak ▸ List.mem_append_right part hc)
    have hcloses : closesLine after = false := by
      rwa [opensLine, hbreak, Option.isSome_some, Bool.true_and] at hlines
    simp only [Option.map_some, Shape.close?, h.readBody?_eq hmore,
      (readBody?_blanks h.after_blank).1 hcloses, Option.map_none]

/-- Then the code is read with the blanks around it, from the line break behind the opening
delimiter on. -/
theorem exists_read?_codeLines (hlines : (opensLine before && closesLine after) = true) :
    ∃ part more blanks d, lineBreak? before = some (part, more) ∧
      read? .codeLines (laidOut before code after).source = some (d, []) ∧
      d.body = more ++ (code ++ blanks) ∧ ∀ c ∈ blanks, Text.isBlank c = true := by
  rw [Bool.and_eq_true, opensLine, Option.isSome_iff_exists] at hlines
  obtain ⟨⟨⟨part, more⟩, hbreak⟩, hcloses⟩ := hlines
  obtain ⟨blanks, closing, hread, hbegins⟩ := (readBody?_blanks h.after_blank).2 hcloses
  have hmore : ∀ c ∈ more, Text.isBlank c = true := fun c hc =>
    h.before_blank c (isLossless_lineBreak? hbreak ▸ List.mem_append_right part hc)
  refine ⟨part, more, blanks, ⟨"<%".toList ++ part, signOf ("<%".toList ++ part),
    more ++ (code ++ blanks), closing⟩, hbreak, ?_, rfl, fun c hc =>
      h.after_blank c (hbegins.subset hc)⟩
  simp only [read?, h.open?_codeLines, hbreak, Option.map_some, Shape.close?, h.readBody?_eq hmore,
    hread]

/-- Nothing is taken from the code of a block of lines, and only line breaks from before it. -/
theorem linesOfCode_eq {more blanks : Text} (hblanks : ∀ c ∈ blanks, Text.isBlank c = true) :
    linesOfCode (more ++ (code ++ blanks)) = more.dropWhile isLineBreak ++ code := by
  have hlast : ∀ c, (more ++ code).getLast? = some c → Text.isBlank c = false := by
    intro c hc
    rw [List.getLast?_append_of_ne_nil _ h.ne_nil] at hc
    exact h.last_not_isBlank c hc
  obtain ⟨c, rest, hcode⟩ := List.exists_cons_of_ne_nil h.ne_nil
  have hbreak : isLineBreak c = false := by
    refine Bool.eq_false_iff.2 fun hbreak => ?_
    have hc := h.head_not_isBlank c (hcode ▸ rfl)
    exact absurd (hc.symm.trans (isBlank_of_isLineBreak hbreak)) Bool.false_ne_true
  have hdrop : (more ++ code).dropWhile isLineBreak = more.dropWhile isLineBreak ++ code := by
    rw [hcode, Text.dropWhile_append_cons_of_neg hbreak]
  rw [linesOfCode, ← List.append_assoc, Text.trimEnd_append_of_isBlank hblanks,
    Text.trimEnd_eq_self hlast]
  exact hdrop

end IsLaidOut

/-- Of the text that a line break is read from, taking away the spaces and tabs and then the line
breaks leaves what taking away line breaks leaves of what follows. -/
theorem dropWhile_isLineBreak_of_lineBreak? {text part more : Text}
    (h : lineBreak? text = some (part, more)) :
    (text.dropWhile isGap).dropWhile isLineBreak = more.dropWhile isLineBreak := by
  rw [lineBreak?, andThen_gap?] at h
  obtain ⟨⟨ending, after⟩, hend, heq⟩ := Option.map_eq_some_iff.1 h
  obtain rfl : after = more := (Prod.mk.inj heq).2
  unfold lineEnd? at hend
  split at hend
  · next hdrop =>
    obtain ⟨-, rfl⟩ := Prod.mk.inj (Option.some.inj hend)
    rw [hdrop]
    rfl
  · next hdrop =>
    obtain ⟨-, rfl⟩ := Prod.mk.inj (Option.some.inj hend)
    rw [hdrop]
    rfl
  · cases hend

/-- Code becomes what it becomes with a space on each side, whatever blanks are around it, unless
both delimiters are on lines of their own. Then it becomes a block of lines, even if it opens,
continues or ends a block, and keeps the blanks between the line break and itself. -/
theorem toMarkup_laidOut {before code after : Text} (h : IsLaidOut before code after) :
    toMarkup ("<%".toList ++ before ++ code ++ after ++ "%>".toList) =
      if opensLine before && closesLine after then
        encode .codeLines ((before.dropWhile isGap).dropWhile isLineBreak ++ code)
      else toMarkup ("<% ".toList ++ code ++ " %>".toList) := by
  have hsource : "<%".toList ++ before ++ code ++ after ++ "%>".toList =
      delimited (before ++ code ++ after) := by
    simp [delimited]
  rw [hsource]
  split
  · -- The pass for blocks of lines comes before the passes for blocks and asks for no role.
    next hlines =>
    obtain ⟨part, more, blanks, d, hbreak, hread, hbody, hblanks⟩ :=
      h.exists_read?_codeLines hlines
    have hpercent : '%' ∉ d.body := by
      have hmore : '%' ∉ more := fun hmem =>
        absurd (h.before_blank _ (isLossless_lineBreak? hbreak ▸ List.mem_append_right part hmem))
          (by decide)
      have hrest : '%' ∉ blanks := fun hmem => absurd (hblanks _ hmem) (by decide)
      rw [hbody, List.mem_append, List.mem_append]
      rintro (hmem | hmem | hmem)
      exacts [hmore hmem, h.plain.2 hmem, hrest hmem]
    rw [laidOut_source] at hread
    rw [toMarkup_of_read?_codeLines h.isPlain hread hpercent, hbody, h.linesOfCode_eq hblanks,
      dropWhile_isLineBreak_of_lineBreak? hbreak]
  · -- The passes for blocks are the first to see it, and they see the trimmed code alone.
    next hlines =>
    have hone : (spaced none code).IsOneLine :=
      spaced_isOneLine (.inl rfl) h.plain h.oneLine
    have hspaced : "<% ".toList ++ code ++ " %>".toList = (spaced none code).source := by
      simp [spaced_source]
    have hcode : (laidOut before code after).code = (spaced none code).code := by
      rw [h.laidOut_code, spaced_code h.trim_eq]
    rw [toMarkup_delimited h.isPlain, ← laidOut_source,
      h.isRead.rewrite_eq rfl (h.read?_codeLines_eq_none (Bool.eq_false_iff.2 hlines)),
      blockMarkup_congr hcode rfl, hspaced, hone.isTagFree.toMarkup_eq, hone.rewrite_eq]
    rfl

/-- A condition whose opening delimiter alone is on a line of its own opens a block. -/
theorem toMarkup_laidOut_if :
    IsLaidOut "\n  ".toList "if x".toList " ".toList ∧
      toMarkup ("<%".toList ++ "\n  ".toList ++ "if x".toList ++ " ".toList ++ "%>".toList) =
        toMarkup ("<% ".toList ++ "if x".toList ++ " %>".toList) := by
  have h : IsLaidOut "\n  ".toList "if x".toList " ".toList :=
    ⟨Text.forall_of_all (by decide), Text.forall_of_all (by decide), by decide, by decide,
      by decide, by decide, by decide, by decide⟩
  have hlines : (opensLine "\n  ".toList && closesLine " ".toList) = false := by decide
  refine ⟨h, ?_⟩
  rw [toMarkup_laidOut h, hlines, if_neg Bool.false_ne_true]

/-- With both delimiters on lines of their own a condition opens no block. A hyphen at an end of
the code is read as a part of the delimiter that it touches. -/
theorem toMarkup_laidOut_ne :
    IsLaidOut "\n".toList "if x".toList "\n".toList ∧
      (laidOut "\n".toList "if x".toList "\n".toList).isOpener = true ∧
      toMarkup ("<%".toList ++ "\n".toList ++ "if x".toList ++ "\n".toList ++ "%>".toList) ≠
        toMarkup ("<% ".toList ++ "if x".toList ++ " %>".toList) ∧
      toMarkup ("<%".toList ++ "-x do".toList ++ "%>".toList) ≠
        toMarkup ("<% ".toList ++ "-x do".toList ++ " %>".toList) ∧
      toMarkup ("<%".toList ++ "if x -".toList ++ "%>".toList) ≠
        toMarkup ("<% ".toList ++ "if x -".toList ++ " %>".toList) := by
  have h : IsLaidOut "\n".toList "if x".toList "\n".toList :=
    ⟨Text.forall_of_all (by decide), Text.forall_of_all (by decide), by decide, by decide,
      by decide, by decide, by decide, by decide⟩
  refine ⟨h, by decide, ?_⟩
  decide +kernel

end SlimTemplate.Directive
