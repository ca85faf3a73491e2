import SlimTemplate.Proofs.Directive.Rewrite

/-!
# What becomes of a directive on one line

A directive whose code is on one line is taken by exactly one pass. Which one takes it is decided
by its sign and by the words at the two ends of its code: an output expression that opens no block
becomes a comment before any other pass sees it, and a branch or an end is looked for only among
the directives that do not open a block.

## Main definitions

* `Directive.IsOneLine`: a directive as it is read, with its code on one line.
* `Directive.IsRead`: a directive as it is read, on any number of lines.
* `Directive.isOpener`, `Directive.isTerminator`, `Directive.isLeaf`: the roles of directives.
* `Directive.leafMarkup`: the comment for a directive outside of the structure of blocks.
* `Directive.spaced`: a directive with a space on each side of its code.

## Main statements

* `Directive.startsWithWord_iff`, `Directive.endsInDo_iff`: the words that decide about blocks.
* `Directive.rewrite_opener`, `Directive.rewrite_branch`, `Directive.rewrite_terminator`,
  `Directive.rewrite_leaf`: what becomes of a directive of each role.
-/

namespace SlimTemplate.Directive

/-! ## Words at the ends of code -/

/-- A text begins with a word if the word and a blank stand at its start. -/
theorem startsWithWord_iff {word text : Text} :
    startsWithWord word text = true ↔
      ∃ c rest, text = word ++ c :: rest ∧ Text.isBlank c = true := by
  rw [startsWithWord]
  constructor
  · intro h
    split at h
    · next c rest hrest => exact ⟨c, rest, Text.dropPrefix?_eq_some_iff.1 hrest, h⟩
    · exact absurd h Bool.false_ne_true
  · rintro ⟨c, rest, rfl, hc⟩
    rw [Text.dropPrefix?_append]
    exact hc

theorem endsInDoWord_iff {text : Text} :
    endsInDoWord text = true ↔
      ∃ before, text = 'o' :: 'd' :: before ∧ Text.atWordEnd before = true := by
  unfold endsInDoWord
  constructor
  · intro h
    split at h
    · next before => exact ⟨before, rfl, h⟩
    · exact absurd h Bool.false_ne_true
  · rintro ⟨before, rfl, h⟩
    exact h

theorem dropWhile_reverse_eq (code : Text) :
    code.reverse.dropWhile Text.isBlank = (Text.trimEnd code).reverse := by
  rw [Text.trimEnd, Text.dropEndWhile_eq_rdropWhile, List.rdropWhile, List.reverse_reverse]

/-- Read from the end, a bar closes the parameters that the next bar opens, and the word stands
before the blanks in front of these. -/
theorem eq_append_of_bars {rest after before : Text} {bar : Char}
    (hafter : rest.dropWhile (· ≠ '|') = bar :: after)
    (hbefore : after.dropWhile Text.isBlank = 'o' :: 'd' :: before) :
    ∃ names blanks, rest = names ++ '|' :: (blanks ++ 'o' :: 'd' :: before) ∧ '|' ∉ names ∧
      ∀ c ∈ blanks, Text.isBlank c = true := by
  obtain ⟨names, hrest, hnames, hbar⟩ := Text.eq_append_of_dropWhile hafter
  obtain ⟨blanks, hblanks, hblank, -⟩ := Text.eq_append_of_dropWhile hbefore
  obtain rfl : bar = '|' := by simpa using hbar
  exact ⟨names, blanks, by rw [hrest, hblanks], fun hmem => by simpa using hnames '|' hmem, hblank⟩

theorem dropWhile_ne_bar {names : Text} (hnames : '|' ∉ names) (rest : Text) :
    (names ++ '|' :: rest).dropWhile (· ≠ '|') = '|' :: rest := by
  have hnone : names.dropWhile (· ≠ '|') = [] := by
    rw [List.dropWhile_eq_nil_iff]
    intro c hc
    have hne : c ≠ '|' := fun heq => hnames (heq ▸ hc)
    simpa using hne
  rw [Text.dropWhile_append_cons_of_neg (by simp), hnone]
  rfl

/-- Code ends by opening a `do` block if it ends in the word `do`, or in that word and parameters
between two bars. Blanks at the end and before the bars do not count. -/
theorem endsInDo_iff {code : Text} :
    endsInDo code = true ↔ ∃ before parameters,
      Text.trimEnd code = before ++ 'd' :: 'o' :: parameters ∧
        Text.atWordEnd before.reverse = true ∧
        (parameters = [] ∨ ∃ blanks names, parameters = blanks ++ '|' :: (names ++ ['|']) ∧
          (∀ c ∈ blanks, Text.isBlank c = true) ∧ '|' ∉ names) := by
  rw [endsInDo, dropWhile_reverse_eq, Bool.or_eq_true, endsInDoWord_iff]
  -- Code is read from its end, so its parts are found in reverse.
  constructor
  · rintro (⟨before, hcode, hword⟩ | h)
    · refine ⟨before.reverse, [], ?_, by rwa [List.reverse_reverse], Or.inl rfl⟩
      rw [← List.reverse_inj, hcode]
      simp
    · split at h
      · next rest hreverse =>
        split at h
        · next bar after hafter =>
          obtain ⟨before, hbefore, hword⟩ := endsInDoWord_iff.1 h
          obtain ⟨names, blanks, hrest, hnames, hblanks⟩ := eq_append_of_bars hafter hbefore
          refine ⟨before.reverse, blanks.reverse ++ '|' :: (names.reverse ++ ['|']), ?_,
            by rwa [List.reverse_reverse], Or.inr ⟨_, _, rfl, fun c hc => ?_, ?_⟩⟩
          · rw [← List.reverse_inj, hreverse, hrest]
            simp only [List.reverse_append, List.reverse_cons, List.reverse_reverse,
              List.append_assoc, List.cons_append, List.nil_append, List.reverse_nil]
          · exact hblanks c (List.mem_reverse.1 hc)
          · exact mt List.mem_reverse.1 hnames
        · exact absurd h Bool.false_ne_true
      · exact absurd h Bool.false_ne_true
  · rintro ⟨before, parameters, hcode, hword, hparameters⟩
    rcases hparameters with rfl | ⟨blanks, names, rfl, hblanks, hnames⟩
    · left
      exact ⟨before.reverse, by simp [hcode], hword⟩
    · right
      have hreverse : (Text.trimEnd code).reverse =
          '|' :: (names.reverse ++ '|' :: (blanks.reverse ++ 'o' :: 'd' :: before.reverse)) := by
        simp [hcode]
      have hblanks' : ∀ c ∈ blanks.reverse, Text.isBlank c = true :=
        fun c hc => hblanks c (List.mem_reverse.1 hc)
      have hd : Text.isBlank 'o' = false := by decide
      simp only [hreverse]
      rw [dropWhile_ne_bar (mt List.mem_reverse.1 hnames)]
      simp only
      rw [List.dropWhile_append_of_pos hblanks', List.dropWhile_cons_of_neg (by simp [hd])]
      exact hword

/-- What stands before code and does not end in a word has no part in how the code ends. -/
theorem endsInDo_append {before : Text} (hword : Text.atWordEnd before.reverse = true)
    (hd : 'd' ∉ before) (code : Text) : endsInDo (before ++ code) = endsInDo code := by
  by_cases hblank : ∀ c ∈ code, Text.isBlank c = true
  · -- Blank code ends in no word, and neither does what stands before it.
    have hnone : ∀ {text : Text}, 'd' ∉ text → endsInDo text = false := by
      intro text hnot
      refine Bool.eq_false_iff.2 fun hdo => ?_
      obtain ⟨start, parameters, hcode, -⟩ := endsInDo_iff.1 hdo
      refine hnot ((Text.trimEnd_isPrefix text).subset ?_)
      rw [hcode]
      exact List.mem_append_right _ List.mem_cons_self
    have hcode : 'd' ∉ code := fun hmem => absurd (hblank _ hmem) (by decide)
    rw [hnone hcode, hnone fun hmem => (List.mem_append.1 hmem).elim hd hcode]
  · have htrim : Text.trimEnd (before ++ code) = before ++ Text.trimEnd code := by
      push Not at hblank
      obtain ⟨c, hmem, hc⟩ := hblank
      obtain ⟨start, rest, rfl⟩ := List.append_of_mem hmem
      rw [← List.append_assoc, Text.trimEnd_append_cons (Bool.eq_false_iff.2 hc),
        Text.trimEnd_append_cons (Bool.eq_false_iff.2 hc), List.append_assoc]
    rw [Bool.eq_iff_iff, endsInDo_iff, endsInDo_iff, htrim]
    constructor
    · rintro ⟨start, parameters, hcode, hstart, hparameters⟩
      rcases List.append_eq_append_iff.1 hcode with ⟨more, rfl, hmore⟩ | ⟨more, hbefore, hmore⟩
      · refine ⟨more, parameters, hmore, ?_, hparameters⟩
        rw [List.reverse_append] at hstart
        cases hmore' : more.reverse with
        | nil => rfl
        | cons c rest => rwa [hmore'] at hstart
      · -- The word does not begin in what stands before the code.
        cases more with
        | nil => exact ⟨[], parameters, hmore.symm, rfl, hparameters⟩
        | cons c more =>
          obtain rfl : 'd' = c := (List.cons.inj hmore).1
          exact absurd (hbefore ▸ List.mem_append_right start List.mem_cons_self) hd
    · rintro ⟨start, parameters, hcode, hstart, hparameters⟩
      refine ⟨before ++ start, parameters, by rw [hcode, List.append_assoc], ?_, hparameters⟩
      rw [List.reverse_append]
      cases hreverse : start.reverse with
      | nil => exact hword
      | cons c rest => rwa [hreverse] at hstart

/-! ## Roles -/

/-- A directive as it is read, with its code on one line. -/
structure IsOneLine (d : Directive) : Prop where
  /-- The sign is a hyphen or an equals sign. -/
  sign_eq : d.sign = none ∨ d.sign = some '-' ∨ d.sign = some '='
  /-- The opening delimiter ends in the sign. -/
  opening_eq : d.opening = '<' :: '%' :: d.sign.toList
  /-- A hyphen may stand before the closing delimiter. -/
  closing_eq : d.closing = ['%', '>'] ∨ d.closing = ['-', '%', '>']
  /-- The code neither opens nor closes anything. -/
  plain : IsPlain d.body
  /-- The code has no line break. -/
  oneLine : '\n' ∉ d.body
  /-- A sign directly after the opening delimiter is the sign of the directive. -/
  no_sign : d.sign = none → (d.body ++ d.closing).head? ≠ some '-' ∧
    (d.body ++ d.closing).head? ≠ some '='
  /-- A hyphen directly before the closing delimiter belongs to it. -/
  no_hyphen : d.closing = ['%', '>'] → d.body.getLast? ≠ some '-'

instance (d : Directive) : Decidable d.IsOneLine :=
  decidable_of_iff
    ((d.sign = none ∨ d.sign = some '-' ∨ d.sign = some '=') ∧
      d.opening = '<' :: '%' :: d.sign.toList ∧
      (d.closing = ['%', '>'] ∨ d.closing = ['-', '%', '>']) ∧ IsPlain d.body ∧
      '\n' ∉ d.body ∧
      (d.sign = none → (d.body ++ d.closing).head? ≠ some '-' ∧
        (d.body ++ d.closing).head? ≠ some '=') ∧
      (d.closing = ['%', '>'] → d.body.getLast? ≠ some '-'))
    ⟨fun ⟨h1, h2, h3, h4, h5, h6, h7⟩ => ⟨h1, h2, h3, h4, h5, h6, h7⟩,
      fun ⟨h1, h2, h3, h4, h5, h6, h7⟩ => ⟨h1, h2, h3, h4, h5, h6, h7⟩⟩

/-- Whether a directive opens a block: code that begins with a keyword, or any code that ends by
opening a `do` block. -/
def isOpener (d : Directive) : Bool :=
  (!d.isOutput && blockKeywords.any (startsWithWord · d.code)) || endsInDo d.code

/-- Whether a directive ends a block with its keyword. -/
def isTerminator (d : Directive) : Bool :=
  !d.isOutput && d.code = "end".toList

/-- Whether a directive has no part in the structure of blocks. -/
def isLeaf (d : Directive) : Bool :=
  !d.isOpener && !d.isBranch && !d.endsBlock

/-- The comment for a directive that has no part in the structure of blocks. -/
def leafMarkup (d : Directive) : Text :=
  if d.isOutput then encode .output d.code
  else if d.code.isEmpty then []
  else encode .code d.code

/-- A directive as it is read, whose code may have line breaks. -/
structure IsRead (d : Directive) : Prop where
  sign_eq : d.sign = none ∨ d.sign = some '-' ∨ d.sign = some '='
  opening_eq : d.opening = '<' :: '%' :: d.sign.toList
  closing_eq : d.closing = ['%', '>'] ∨ d.closing = ['-', '%', '>']
  plain : IsPlain d.body
  no_sign : d.sign = none → (d.body ++ d.closing).head? ≠ some '-' ∧
    (d.body ++ d.closing).head? ≠ some '='
  no_hyphen : d.closing = ['%', '>'] → d.body.getLast? ≠ some '-'

variable {d : Directive}

theorem IsOneLine.isRead (h : d.IsOneLine) : d.IsRead :=
  ⟨h.sign_eq, h.opening_eq, h.closing_eq, h.plain, h.no_sign, h.no_hyphen⟩

theorem IsRead.source_eq (h : d.IsRead) :
    d.source = '<' :: '%' :: (d.sign.toList ++ (d.body ++ d.closing)) := by
  rw [source, h.opening_eq, List.append_assoc]
  rfl

/-- What stands between the delimiters of a directive: the code, and at most signs around it. -/
theorem IsRead.exists_inner (h : d.IsRead) :
    ∃ inner, d.source = delimited inner ∧ IsPlain inner ∧
      ∀ c, c ≠ '-' → c ≠ '=' → c ∉ d.body → c ∉ inner := by
  have hends : ∃ hyphen, d.closing = hyphen ++ ['%', '>'] ∧ ∀ c ∈ hyphen, c = '-' := by
    rcases h.closing_eq with heq | heq
    · exact ⟨[], heq, by simp⟩
    · exact ⟨['-'], heq, by simp⟩
  obtain ⟨hyphen, hclosing, hhyphen⟩ := hends
  have hsign : ∀ c ∈ d.sign.toList, c = '-' ∨ c = '=' := by
    intro c hc
    rw [Option.mem_toList] at hc
    rcases h.sign_eq with heq | heq | heq
    · rw [heq] at hc
      simp at hc
    · exact Or.inl (Option.some.inj (hc.symm.trans heq))
    · exact Or.inr (Option.some.inj (hc.symm.trans heq))
  have hmem : ∀ c, c ≠ '-' → c ≠ '=' → c ∉ d.body → c ∉ d.sign.toList ++ (d.body ++ hyphen) := by
    intro c hdash hequals hbody hc
    rcases List.mem_append.1 hc with hc | hc
    · exact (hsign c hc).elim hdash hequals
    · rcases List.mem_append.1 hc with hc | hc
      · exact hbody hc
      · exact hdash (hhyphen c hc)
  refine ⟨d.sign.toList ++ (d.body ++ hyphen), ?_, ⟨?_, ?_⟩, hmem⟩
  · rw [h.source_eq, hclosing, delimited]
    simp only [List.append_assoc]
  · exact hmem '<' (by decide) (by decide) h.plain.1
  · exact hmem '%' (by decide) (by decide) h.plain.2

theorem IsOneLine.exists_inner (h : d.IsOneLine) :
    ∃ inner, d.source = delimited inner ∧ IsPlain inner ∧ '\n' ∉ inner := by
  obtain ⟨inner, hsource, hplain, hmem⟩ := h.isRead.exists_inner
  exact ⟨inner, hsource, hplain, hmem '\n' (by decide) (by decide) h.oneLine⟩

/-! ## Reading -/

theorem readBody?_close?_append {body closing : Text} (hbody : '%' ∉ body)
    (hclosing : closing = ['%', '>'] ∧ body.getLast? ≠ some '-' ∨ closing = ['-', '%', '>'])
    (rest : Text) :
    readBody? close? (body ++ (closing ++ rest)) = some (body, closing, rest) := by
  induction body with
  | nil =>
    rcases hclosing with ⟨rfl, -⟩ | rfl
    · exact readBody?_of_close rfl
    · exact readBody?_of_close rfl
  | cons c body ih =>
    have hc : c ≠ '%' := by
      rintro rfl
      exact hbody List.mem_cons_self
    have hbody' : '%' ∉ body := fun hmem => hbody (List.mem_cons_of_mem _ hmem)
    -- A hyphen closes nothing unless the delimiter follows, and then it is not in the code.
    have hnone : close? (c :: (body ++ (closing ++ rest))) = none := by
      by_cases hdash : c = '-'
      · subst hdash
        cases body with
        | nil =>
          rcases hclosing with ⟨-, hlast⟩ | rfl
          · simp at hlast
          · rfl
        | cons e body =>
          have he : e ≠ '%' := by
            rintro rfl
            exact hbody' List.mem_cons_self
          simp [close?, he]
      · simp [close?, hc, hdash]
    have hclosing' : closing = ['%', '>'] ∧ body.getLast? ≠ some '-' ∨
        closing = ['-', '%', '>'] := by
      refine hclosing.imp_left fun hlast => ⟨hlast.1, fun heq => hlast.2 ?_⟩
      cases body with
      | nil => simp at heq
      | cons e body => rw [List.getLast?_cons_cons, heq]
    rw [List.cons_append, readBody?_cons hnone hc, ih hbody' hclosing', Option.map_some]

theorem IsRead.readBody?_eq (h : d.IsRead) :
    readBody? close? (d.body ++ d.closing) = some (d.body, d.closing, []) := by
  have hclosing : d.closing = ['%', '>'] ∧ d.body.getLast? ≠ some '-' ∨
      d.closing = ['-', '%', '>'] :=
    h.closing_eq.imp_left fun heq => ⟨heq, h.no_hyphen heq⟩
  have hread := readBody?_close?_append h.plain.2 hclosing []
  rwa [List.append_nil] at hread

theorem IsRead.open?_any (h : d.IsRead) :
    Shape.any.open? d.source = some (d.opening, d.body ++ d.closing) := by
  rw [h.source_eq, h.opening_eq]
  rcases h.sign_eq with heq | heq | heq
  · have hhead := h.no_sign heq
    rw [heq]
    cases hcode : d.body ++ d.closing with
    | nil => rfl
    | cons c code =>
      rw [hcode] at hhead
      have hdash : c ≠ '-' := by simpa using hhead.1
      have hequals : c ≠ '=' := by simpa using hhead.2
      simp [Shape.open?, hdash, hequals]
  · rw [heq]
    rfl
  · rw [heq]
    rfl

theorem IsRead.signOf_opening (h : d.IsRead) : signOf d.opening = d.sign := by
  rw [h.opening_eq]
  rcases h.sign_eq with heq | heq | heq <;> rw [heq] <;> rfl

/-- A directive is read as it is. -/
theorem IsRead.read?_any (h : d.IsRead) : read? .any d.source = some (d, []) := by
  simp only [read?, h.open?_any, Shape.close?, h.readBody?_eq, Option.map_some, h.signOf_opening]

theorem IsRead.read?_output (h : d.IsRead) (hd : d.isOutput = true) :
    read? .output d.source = some (d, []) := by
  have hsign : d.sign = some '=' := by simpa [isOutput] using hd
  have hopen : Shape.output.open? d.source = some (d.opening, d.body ++ d.closing) := by
    rw [h.source_eq, h.opening_eq, hsign]
    rfl
  simp only [read?, hopen, Shape.close?, h.readBody?_eq, Option.map_some, h.signOf_opening]

/-- Code that is no output expression has no equals sign behind the opening delimiter. -/
theorem IsRead.open?_eq_none (h : d.IsRead) (hd : d.isOutput = false) :
    Shape.output.open? d.source = none ∧ Shape.outputLines.open? d.source = none := by
  have hsign : d.sign ≠ some '=' := by simpa [isOutput] using hd
  rw [h.source_eq]
  rcases h.sign_eq with heq | heq | heq
  · have hhead := h.no_sign heq
    rw [heq]
    cases hcode : d.body ++ d.closing with
    | nil => exact ⟨rfl, rfl⟩
    | cons c code =>
      rw [hcode] at hhead
      have hequals : c ≠ '=' := by simpa using hhead.2
      simp [Shape.open?, hequals]
  · rw [heq]
    exact ⟨rfl, rfl⟩
  · exact absurd heq hsign

theorem IsRead.read?_output_eq_none (h : d.IsRead) (hd : d.isOutput = false) :
    read? .output d.source = none := by
  simp only [read?, (h.open?_eq_none hd).1]

theorem IsRead.read?_outputLines_eq_none (h : d.IsRead) (hd : d.isOutput = false) :
    read? .outputLines d.source = none := by
  simp only [read?, (h.open?_eq_none hd).2]

theorem lineEnd?_eq_none {text : Text} (h : '\n' ∉ text) : lineEnd? text = none := by
  unfold lineEnd?
  split
  · exact absurd List.mem_cons_self h
  · exact absurd (List.mem_cons_of_mem _ List.mem_cons_self) h
  · rfl

theorem lineBreak?_eq_none {text : Text} (h : '\n' ∉ text) : lineBreak? text = none := by
  have hrest : '\n' ∉ text.dropWhile fun c => c = ' ' || c = '\t' :=
    fun hmem => h ((List.dropWhile_sublist _).subset hmem)
  simp only [lineBreak?, andThen, gap?, Option.bind_some, lineEnd?_eq_none hrest, Option.map_none]

theorem IsOneLine.read?_codeLines (h : d.IsOneLine) : read? .codeLines d.source = none := by
  obtain ⟨inner, hsource, -, hlf⟩ := h.exists_inner
  have hrest : '\n' ∉ inner ++ ['%', '>'] := by simpa using hlf
  have hopen : Shape.codeLines.open? d.source = none := by
    rw [hsource, delimited]
    simp only [Shape.open?, andThen, Option.bind_some, lineBreak?_eq_none hrest, Option.map_none]
  simp only [read?, hopen]

theorem IsOneLine.read?_outputLines (h : d.IsOneLine) : read? .outputLines d.source = none := by
  obtain ⟨inner, hsource, -, hlf⟩ := h.exists_inner
  have hopen : Shape.outputLines.open? d.source = none := by
    rw [hsource, delimited]
    cases inner with
    | nil => rfl
    | cons c inner =>
      by_cases hc : c = '='
      · subst hc
        have hrest : '\n' ∉ inner ++ ['%', '>'] := by
          simp only [List.mem_cons, not_or] at hlf
          simpa using hlf.2
        simp only [List.cons_append, Shape.open?, andThen, Option.bind_some,
          lineBreak?_eq_none hrest, Option.map_none]
      · simp [Shape.open?, hc]
  simp only [read?, hopen]

/-! ## Rewriting -/

theorem IsRead.replaceEach_of_none (h : d.IsRead) {shape : Shape}
    (hread : read? shape d.source = none) (replace : Directive → Option Text) :
    replaceEach shape replace d.source = d.source := by
  obtain ⟨inner, hsource, hplain, -⟩ := h.exists_inner
  rw [hsource, ← List.append_nil (delimited inner)] at hread ⊢
  rw [replaceEach_append_delimited_of_none replace hplain hread, replaceEach]

theorem replaceEach_of_source {shape : Shape} (hread : read? shape d.source = some (d, []))
    (replace : Directive → Option Text) :
    replaceEach shape replace d.source = (replace d).getD d.source := by
  rw [replaceEach_of_read? hread, replaceEach, List.append_nil]

namespace Pass

theorem codeLines_rewrite (h : d.IsOneLine) : codeLines.rewrite d.source = d.source :=
  h.isRead.replaceEach_of_none h.read?_codeLines _

theorem outputLines_rewrite (h : d.IsOneLine) : outputLines.rewrite d.source = d.source :=
  h.isRead.replaceEach_of_none h.read?_outputLines _

theorem output_rewrite (h : d.IsOneLine) :
    output.rewrite d.source =
      if d.isOutput && !endsInDo d.code then encode .output d.code else d.source := by
  have hlf : d.code.contains '\n' = false := by
    rw [List.contains_eq_any_beq, List.any_eq_false]
    intro c hc
    have hbody := Text.mem_of_mem_trim hc
    rw [beq_iff_eq]
    rintro rfl
    exact h.oneLine hbody
  by_cases hd : d.isOutput = true
  · have hrewrite : output.rewrite d.source = (outputMarkup d).getD d.source :=
      replaceEach_of_source (h.isRead.read?_output hd) outputMarkup
    rw [hrewrite, outputMarkup, outputComment, hlf, hd]
    cases endsInDo d.code <;> rfl
  · have hoff := Bool.eq_false_iff.2 hd
    have hrewrite : output.rewrite d.source = d.source :=
      h.isRead.replaceEach_of_none (h.isRead.read?_output_eq_none hoff) outputMarkup
    rw [hrewrite, hoff]
    rfl

end Pass

/-- Later passes leave the markup of a directive as it is. -/
theorem foldl_rewrite_of_isMarkup {text : Text} (h : IsMarkup text) (passes : List Pass) :
    passes.foldl (fun text pass => pass.rewrite text) text = text := by
  induction passes with
  | nil => rfl
  | cons pass passes ih => rw [List.foldl_cons, pass.rewrite_of_isInert h.isInert, ih]

/-- A pass for directives of any form makes of a directive what it makes of it on its own, and
otherwise leaves it to the passes behind. -/
theorem IsRead.foldl_cons_rewrite (h : d.IsRead) {pass : Pass}
    {replace : Directive → Option Text} (hrule : pass.rule? = some (.any, replace))
    (hmarkup : ∀ m, replace d = some m → IsMarkup m) (passes : List Pass) :
    (pass :: passes).foldl (fun text pass => pass.rewrite text) d.source =
      (replace d).getD (passes.foldl (fun text pass => pass.rewrite text) d.source) := by
  have hrewrite : pass.rewrite d.source = (replace d).getD d.source := by
    simp only [Pass.rewrite, hrule]
    exact replaceEach_of_source h.read?_any replace
  rw [List.foldl_cons, hrewrite]
  cases hreplace : replace d with
  | none => rfl
  | some m => exact foldl_rewrite_of_isMarkup (hmarkup m hreplace) passes

/-- What becomes of a directive that the pass for blocks sees. -/
def blockMarkup (d : Directive) : Text :=
  (openerMarkup d).getD <| (branchMarkup d).getD <| (endMarkup d).getD <| (restMarkup d).getD []

theorem IsRead.foldl_rewrite (h : d.IsRead) :
    [Pass.openers, .branches, .ends, .rest].foldl (fun text pass => pass.rewrite text) d.source =
      blockMarkup d := by
  rw [h.foldl_cons_rewrite rfl (fun _ => openerMarkup_isMarkup h.plain),
    h.foldl_cons_rewrite rfl (fun _ => branchMarkup_isMarkup h.plain),
    h.foldl_cons_rewrite rfl (fun _ => endMarkup_isMarkup),
    h.foldl_cons_rewrite rfl (fun _ => restMarkup_isMarkup h.plain)]
  rfl

/-- What becomes of it is decided by its code and by whether it is an output expression. -/
theorem blockMarkup_congr {d' : Directive} (hcode : d.code = d'.code)
    (houtput : d.isOutput = d'.isOutput) : blockMarkup d = blockMarkup d' := by
  simp only [blockMarkup, openerMarkup, branchMarkup, endMarkup, restMarkup, opensBlock, isBranch,
    endsBlock, markerValue, hcode, houtput]
  rfl

/-- The passes for blocks see code as it was written unless the pass for blocks of lines takes
it. -/
theorem IsRead.rewrite_eq (h : d.IsRead) (hd : d.isOutput = false)
    (hlines : read? .codeLines d.source = none) : rewrite d.source = blockMarkup d := by
  have hcodeLines : Pass.codeLines.rewrite d.source = d.source := h.replaceEach_of_none hlines _
  have houtputLines : Pass.outputLines.rewrite d.source = d.source :=
    h.replaceEach_of_none (h.read?_outputLines_eq_none hd) _
  have houtput : Pass.output.rewrite d.source = d.source :=
    h.replaceEach_of_none (h.read?_output_eq_none hd) _
  rw [← h.foldl_rewrite, rewrite, Pass.rewriting, List.foldl_cons, hcodeLines, List.foldl_cons,
    houtputLines, List.foldl_cons, houtput]

/-- The passes from the one for blocks on see a directive as it was written, unless it is an
output expression that opens no block. -/
theorem IsOneLine.rewrite_eq (h : d.IsOneLine) :
    rewrite d.source =
      if d.isOutput && !endsInDo d.code then encode .output d.code else blockMarkup d := by
  have hrewrite : rewrite d.source =
      [Pass.openers, .branches, .ends, .rest].foldl (fun text pass => pass.rewrite text)
        (Pass.output.rewrite d.source) := by
    simp only [rewrite, Pass.rewriting, List.foldl_cons, List.foldl_nil, Pass.codeLines_rewrite h,
      Pass.outputLines_rewrite h]
  rw [hrewrite, Pass.output_rewrite h]
  split
  · exact foldl_rewrite_of_isMarkup (encode_isMarkup _ (percent_not_mem_code h.plain)) _
  · exact h.isRead.foldl_rewrite

theorem opensBlock_of_isOpener (h : d.isOpener = true) : d.opensBlock = true := by
  simp only [isOpener, Bool.or_eq_true, Bool.and_eq_true] at h
  rw [opensBlock, Bool.or_eq_true]
  exact h.imp_left And.right

theorem not_opensBlock (hoff : d.isOutput = false) (h : d.isOpener = false) :
    d.opensBlock = false := by
  rw [isOpener, hoff] at h
  rw [opensBlock]
  exact h

theorem openerMarkup_eq_none (hoff : d.isOutput = false) (h : d.isOpener = false) :
    openerMarkup d = none := by
  rw [openerMarkup, not_opensBlock hoff h, if_neg Bool.false_ne_true]

theorem branchMarkup_eq_none (h : d.isBranch = false) : branchMarkup d = none := by
  rw [branchMarkup, h, if_neg Bool.false_ne_true]

theorem isOutput_of_isBranch (h : d.isBranch = true) : d.isOutput = false := by
  rw [isBranch, Bool.and_eq_true, Bool.not_eq_true'] at h
  exact h.1

theorem isOutput_of_endsBlock (h : d.endsBlock = true) : d.isOutput = false := by
  rw [endsBlock, Bool.and_eq_true, Bool.not_eq_true'] at h
  exact h.1

theorem code_of_endsBlock (h : d.endsBlock = true) : d.code = "end".toList ∨ d.code = ['}'] := by
  rw [endsBlock, Bool.and_eq_true, Bool.or_eq_true, decide_eq_true_eq, decide_eq_true_eq] at h
  exact h.2

/-- The end of a block is neither the start of another nor a branch. -/
theorem isOpener_of_endsBlock (h : d.endsBlock = true) :
    d.isOpener = false ∧ d.isBranch = false := by
  rw [isOpener, isBranch]
  rcases code_of_endsBlock h with hcode | hcode
  · rw [hcode, isOutput_of_endsBlock h]
    decide
  · rw [hcode, isOutput_of_endsBlock h]
    decide

/-- A directive that opens a block becomes the start tag of a template. -/
theorem rewrite_opener (h : d.IsOneLine) (hopener : d.isOpener = true) :
    rewrite d.source = openingTag (markerValue d) := by
  have houtput : (d.isOutput && !endsInDo d.code) = false := by
    simp only [isOpener, Bool.or_eq_true, Bool.and_eq_true, Bool.not_eq_true'] at hopener
    rcases hopener with ⟨hoff, -⟩ | hdo
    · rw [hoff, Bool.false_and]
    · rw [hdo, Bool.not_true, Bool.and_false]
  have hmarkup : openerMarkup d = some (openingTag (markerValue d)) := by
    rw [openerMarkup, if_pos (opensBlock_of_isOpener hopener)]
  rw [h.rewrite_eq, houtput, if_neg Bool.false_ne_true, blockMarkup, hmarkup, Option.getD_some]

/-- A branch becomes the end tag of one template and the start tag of the next. -/
theorem rewrite_branch (h : d.IsOneLine) (hbranch : d.isBranch = true)
    (hopener : d.isOpener = false) :
    rewrite d.source = closingTag ++ openingTag d.code := by
  have hoff := isOutput_of_isBranch hbranch
  have hmarkup : branchMarkup d = some (closingTag ++ openingTag d.code) := by
    rw [branchMarkup, if_pos hbranch]
  rw [h.rewrite_eq, hoff, Bool.false_and, if_neg Bool.false_ne_true, blockMarkup,
    openerMarkup_eq_none hoff hopener, Option.getD_none, hmarkup, Option.getD_some]

/-- The end of a block becomes the end tag of a template. -/
theorem rewrite_terminator (h : d.IsOneLine) (hends : d.endsBlock = true) :
    rewrite d.source = closingTag := by
  have hoff := isOutput_of_endsBlock hends
  obtain ⟨hopener, hbranch⟩ := isOpener_of_endsBlock hends
  have hmarkup : endMarkup d = some closingTag := by
    rw [endMarkup, if_pos hends]
  rw [h.rewrite_eq, hoff, Bool.false_and, if_neg Bool.false_ne_true, blockMarkup,
    openerMarkup_eq_none hoff hopener, Option.getD_none, branchMarkup_eq_none hbranch,
    Option.getD_none, hmarkup, Option.getD_some]

/-- Any other directive becomes a comment, or nothing if it is empty code. -/
theorem rewrite_leaf (h : d.IsOneLine) (hleaf : d.isLeaf = true) :
    rewrite d.source = leafMarkup d := by
  simp only [isLeaf, Bool.and_eq_true, Bool.not_eq_true'] at hleaf
  obtain ⟨⟨hopener, hbranch⟩, hends⟩ := hleaf
  by_cases hoff : d.isOutput = true
  · -- The pass for output expressions takes it, whatever word it begins with.
    have hdo : endsInDo d.code = false := by
      rw [isOpener, Bool.or_eq_false_iff] at hopener
      exact hopener.2
    rw [h.rewrite_eq, hoff, hdo, leafMarkup, hoff]
    rfl
  · have hoff := Bool.eq_false_iff.2 hoff
    have hendsMarkup : endMarkup d = none := by
      rw [endMarkup, hends, if_neg Bool.false_ne_true]
    have hmarkup : restMarkup d = some (leafMarkup d) := by
      rw [restMarkup, leafMarkup, hoff]
      rfl
    rw [h.rewrite_eq, hoff, Bool.false_and, if_neg Bool.false_ne_true, blockMarkup,
      openerMarkup_eq_none hoff hopener, Option.getD_none, branchMarkup_eq_none hbranch,
      Option.getD_none, hendsMarkup, Option.getD_none, hmarkup, Option.getD_some]

/-! ## Code with a space on each side -/

/-- A directive with that sign, and a space on each side of its code. -/
def spaced (sign : Option Char) (code : Text) : Directive :=
  ⟨'<' :: '%' :: sign.toList, sign, ' ' :: (code ++ [' ']), "%>".toList⟩

theorem spaced_source (sign : Option Char) (code : Text) :
    (spaced sign code).source =
      "<%".toList ++ sign.toList ++ " ".toList ++ code ++ " %>".toList := by
  simp [spaced, source]

theorem spaced_isOutput (sign : Option Char) (code : Text) :
    (spaced sign code).isOutput = decide (sign = some '=') :=
  rfl

/-- The spaces are no part of the code. -/
theorem spaced_code {code : Text} (h : Text.trim code = code) (sign : Option Char) :
    (spaced sign code).code = code := by
  have hspace : ∀ c ∈ [' '], Text.isBlank c = true := List.forall_mem_singleton.2 (by decide)
  show Text.trim ([' '] ++ (code ++ [' '])) = code
  rw [Text.trim_append_of_isBlank_left hspace, Text.trim_append_of_isBlank_right hspace, h]

/-- A space behind the code keeps a hyphen of the code from the closing delimiter. -/
theorem isOneLine_of_space {sign : Option Char}
    (hsign : sign = none ∨ sign = some '-' ∨ sign = some '=') {text : Text} (hplain : IsPlain text)
    (hline : '\n' ∉ text)
    (hhead : sign = none → text.head? ≠ some '-' ∧ text.head? ≠ some '=' ∧ text ≠ []) :
    IsOneLine ⟨'<' :: '%' :: sign.toList, sign, text ++ [' '], "%>".toList⟩ where
  sign_eq := hsign
  opening_eq := rfl
  closing_eq := .inl rfl
  plain := by simpa [IsPlain] using hplain
  oneLine := by simpa using hline
  no_sign hnone := by
    obtain ⟨hdash, hequals, hne⟩ := hhead hnone
    obtain ⟨c, rest, rfl⟩ := List.exists_cons_of_ne_nil hne
    exact ⟨hdash, hequals⟩
  no_hyphen _ := by
    rw [List.getLast?_concat]
    decide

theorem spaced_isOneLine {sign : Option Char}
    (hsign : sign = none ∨ sign = some '-' ∨ sign = some '=') {code : Text} (hplain : IsPlain code)
    (hline : '\n' ∉ code) : (spaced sign code).IsOneLine := by
  have hplain' : IsPlain (' ' :: code) := by simpa [IsPlain] using hplain
  have hline' : '\n' ∉ ' ' :: code := by simpa using hline
  exact isOneLine_of_space hsign hplain' hline' fun _ => ⟨by simp, by simp, by simp⟩

end SlimTemplate.Directive
