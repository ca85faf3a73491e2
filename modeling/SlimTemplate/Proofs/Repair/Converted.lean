import SlimTemplate.Conversion
import SlimTemplate.Proofs.Repair.Sheltered
import SlimTemplate.Proofs.Repair.Tag
import SlimTemplate.Proofs.Writer.Nodes
import SlimTemplate.Proofs.Writer.Regular

/-!
# Repairs of a converted document

The rows of every node are sheltered at the margin of the node. Lines of text, code and comments
begin with a sign, tag lines are bare or have text that does not start with a slash, and what is
written below a tag line with text begins with a sign or stands no deeper than the tag. So a repair
of a converted document starts at an exposed row or not at all.

## Main statements

* `Repair.isSheltered_nodeRows`: the rows of a node are sheltered.
* `repair_htmlToSlim`: repairs of a converted document start at exposed rows only.
-/

namespace SlimTemplate

namespace Repair

open Markup Writer

variable {layout : Layout} {depth margin : Nat}

theorem content_row (layout : Layout) (depth : Nat) (text : Text) (kind : RowKind) :
    (Row.mk (layout.indent depth ++ text) kind).line.content = Text.trim text :=
  Text.trim_spaces_append _ _

theorem length_margin_row (layout : Layout) (depth : Nat) (text : Text) (kind : RowKind) :
    (Row.mk (layout.indent depth ++ text) kind).line.margin.length =
      layout.width * depth + spacesBefore text :=
  spacesBefore_spaces_append _ _

/-- A line that is no element with text and no slash is sheltered where no shallower line stands
before it, together with what carries it on. -/
theorem isSheltered_line {text : Text} (hlf : '\n' ∉ text)
    (htext : headAndText? (Text.trim text) = none) (hslash : isSlashText (Text.trim text) = false)
    (hspaces : spacesBefore text = 0) (hmargin : layout.width * depth ≤ margin)
    (entries : List Entry) :
    IsSheltered margin (rowsAs layout .own .carriedOn (⟨depth, text⟩ :: entries)) := by
  rw [rowsAs, Entry.rows_of_not_mem hlf]
  refine isSheltered_cons_carriedOn (fun _ => ?_) (fun _ => ?_) (Or.inr ?_)
    fun row hrow => kind_of_mem_flatMap_rows hrow
  · rwa [content_row]
  · rwa [content_row]
  · rw [isTextBelow, length_margin_row, hspaces, decide_eq_false (by omega), Bool.false_and]

/-! ## Lines with a sign -/

/-- The signs with which the lines of text, code and comments begin. -/
def signs : List Text :=
  ["|", "=", "-", "/!"].map String.toList

/-- A line that begins with a sign is no element and no text. -/
theorem quiet_of_mem_signs {s : Text} (h : s ∈ signs) (text : Text) :
    headAndText? (Text.trim (s ++ text)) = none ∧
      isSlashText (Text.trim (s ++ text)) = false ∧
      startsWithSign (Text.trim (s ++ text)) = true := by
  have hs : s = ['|'] ∨ s = ['='] ∨ s = ['-'] ∨ s = ['/', '!'] := by
    simpa [signs] using h
  rcases hs with rfl | rfl | rfl | rfl
  case inr.inr.inr =>
    have htrim : Text.trim (['/', '!'] ++ text) = '/' :: '!' :: Text.trimEnd text := by
      show Text.trim ('/' :: '!' :: text) = _
      rw [Text.trim_cons_of_not_isBlank (by decide)]
      exact congrArg _ (Text.trimEnd_append_cons (by decide) [] text)
    rw [htrim]
    exact ⟨headAndText?_eq_none_of_head? rfl (by decide) (by decide) (by decide), rfl, rfl⟩
  all_goals
    rw [List.singleton_append, Text.trim_cons_of_not_isBlank (by decide)]
    exact ⟨headAndText?_eq_none_of_head? rfl (by decide) (by decide) (by decide), rfl, rfl⟩

theorem lineFeed_not_mem_sign {s : Text} (h : s ∈ signs) : '\n' ∉ s := by
  revert s
  decide

/-- A line that begins with a sign is sheltered together with what carries it on. -/
theorem isSheltered_signed {s : Text} (h : s ∈ signs) (layout : Layout)
    (depth margin : Nat) (text : Text) (entries : List Entry) :
    IsSheltered margin (rowsAs layout .own .carriedOn (⟨depth, s ++ text⟩ :: entries)) := by
  obtain ⟨part, more, hrows, hmore⟩ :=
    rowsAs_carriedOn (lineFeed_not_mem_sign h) layout .own depth text entries
  obtain ⟨htext, hslash, hsign⟩ := quiet_of_mem_signs h part
  rw [hrows]
  refine isSheltered_cons_carriedOn (fun _ => ?_) (fun _ => ?_) (Or.inr ?_) hmore
  · rwa [content_row]
  · rwa [content_row]
  · refine isTextBelow_of_startsWithSign ?_ margin
    rwa [content_row]

theorem isSheltered_rows_signed {s : Text} (h : s ∈ signs) (layout : Layout)
    (depth margin : Nat) (text : Text) :
    IsSheltered margin ((Entry.mk depth (s ++ text)).rows layout .own) := by
  rw [← rowsAs_singleton layout .own .carriedOn]
  exact isSheltered_signed h layout depth margin text []

theorem isSheltered_pipes {entries : List Entry}
    (h : ∀ entry ∈ entries, ∃ line, entry = ⟨depth, pipe line⟩) (layout : Layout) (margin : Nat) :
    IsSheltered margin (entries.flatMap (Entry.rows layout .own)) := by
  refine IsSheltered.flatMap fun entry hentry => ?_
  obtain ⟨line, rfl⟩ := h entry hentry
  exact isSheltered_rows_signed (s := ['|']) (by decide) layout depth margin (' ' :: line)

/-! ## Irregular lines -/

theorem isSheltered_irregular (layout : Layout) (margin : Nat) (entries : List Entry) :
    IsSheltered margin (rowsAs layout .irregular .carriedOn entries) := by
  cases entries with
  | nil => exact IsSheltered.nil margin
  | cons entry entries =>
    obtain ⟨part, more, hrows, hmore⟩ :=
      rowsAs_carriedOn (List.not_mem_nil (a := '\n')) layout .irregular entry.depth entry.text
        entries
    rw [List.nil_append] at hrows
    rw [hrows]
    exact isSheltered_cons_carriedOn (fun h => by cases h) (fun h => by cases h) (Or.inl rfl) hmore

theorem isSheltered_rows_irregular (layout : Layout) (margin : Nat) (entry : Entry) :
    IsSheltered margin (entry.rows layout .irregular) := by
  rw [← rowsAs_singleton layout .irregular .carriedOn]
  exact isSheltered_irregular layout margin [entry]

/-! ## Elements -/

theorem isSlashText_of_head?_ne {content : Text} (h : content.head? ≠ some '/') :
    isSlashText content = false := by
  rw [isSlashText, decide_eq_false h, Bool.false_and]

/-- A bare tag line is sheltered from what stands before it, however deep that is. -/
theorem isSheltered_bare (e : Element) (h : layout.width * depth ≤ margin) :
    IsSheltered margin ((Entry.mk depth e.opening).rows layout (tagKind e)) := by
  rw [tagKind]
  split
  · next hwhole =>
    obtain ⟨c, rest, hopening, hc, hslash⟩ := e.opening_eq_cons_of_isWhole hwhole
    have htrim := e.trim_opening_of_isWhole hwhole
    rw [← rowsAs_singleton layout .own .carriedOn]
    refine isSheltered_line (e.lineFeed_not_mem_opening_of_isWhole hwhole) ?_ ?_ ?_ h []
    · rw [htrim]
      exact headAndText?_opening hwhole
    · rw [htrim]
      exact isSlashText_of_head?_ne (by simpa [hopening] using hslash)
    · rw [hopening, spacesBefore_cons_of_not_isBlank hc]
  · exact isSheltered_rows_irregular layout margin _

/-- A tag line with text that does not start with a slash is sheltered at its margin. -/
theorem isSheltered_inlineRow {e : Element} (h : e.isWhole = true) {c : Char} {text : Text}
    (hc : Text.isBlank c = false) (hslash : startsWithOneSlash (c :: text) = false)
    (hlf : '\n' ∉ c :: text) (layout : Layout) (depth : Nat) :
    IsSheltered (layout.width * depth)
      ((Entry.mk depth (e.opening ++ ' ' :: c :: text)).rows layout .own) := by
  obtain ⟨d, rest, hopening, hd, hdslash⟩ := e.opening_eq_cons_of_isWhole h
  have hline : '\n' ∉ e.opening ++ ' ' :: c :: text := by
    rw [List.mem_append, List.mem_cons, not_or, not_or]
    exact ⟨e.lineFeed_not_mem_opening_of_isWhole h, by decide, hlf⟩
  rw [Entry.rows_of_not_mem hline]
  refine isSheltered_singleton (fun _ => ?_) ?_
  · rw [content_row]
    refine ⟨slashBehindHead?_inline h hc hslash, isSlashText_of_head?_ne ?_⟩
    rw [hopening, List.cons_append, Text.head?_trim_cons hd]
    simpa using hdslash
  · rw [length_margin_row, hopening, List.cons_append, spacesBefore_cons_of_not_isBlank hd,
      Nat.add_zero]

theorem markBreaks_cons {c : Char} (hc : c ≠ '\n') (text : Text) :
    markBreaks false (c :: text) = c :: markBreaks false text := by
  rw [markBreaks, if_neg (by simp), if_neg hc]

/-- Line breaks are written otherwise, which does not change whether a second character is a
slash. -/
theorem startsWithOneSlash_of_markBreaks {c : Char} {text : Text}
    (h : startsWithOneSlash (c :: markBreaks false text) = true) :
    startsWithOneSlash (c :: text) = true := by
  rw [startsWithOneSlash_cons, Bool.and_eq_true, decide_eq_true_eq, decide_eq_true_eq] at h ⊢
  refine ⟨h.1, fun hsecond => h.2 ?_⟩
  obtain ⟨more, rfl⟩ := List.head?_eq_some_iff.1 hsecond
  rw [markBreaks_cons (by decide)]
  rfl

/-- The lines of an element whose only child is text: its tag line, alone or with text behind it,
and lines of text below. Only preformatted text behind the tag may start with a slash. -/
theorem inlineEntries_cases (depth : Nat) (e : Element) (content : Text) :
    ∃ first pipes, inlineEntries depth e content = first :: pipes ∧
      (∀ entry ∈ pipes, ∃ line, entry = ⟨depth + 1, pipe line⟩) ∧
      (first = ⟨depth, e.opening⟩ ∨ ∃ c text, first = ⟨depth, e.opening ++ ' ' :: c :: text⟩ ∧
        Text.isBlank c = false ∧ '\n' ∉ c :: text ∧
        (startsWithOneSlash (c :: text) = true →
          e.name = preformatted ∧ startsWithOneSlash (Text.trim content) = true)) := by
  simp only [inlineEntries]
  split
  · exact ⟨_, [], rfl, by simp, Or.inl rfl⟩
  · next hempty =>
    rw [List.isEmpty_iff] at hempty
    split
    · next hname =>
      obtain ⟨c, rest, hcontent⟩ := List.exists_cons_of_ne_nil hempty
      have hc : Text.isBlank c = false := Text.head?_trim_not_isBlank (by rw [hcontent]; rfl)
      have hbreak : c ≠ '\n' := by
        rintro rfl
        exact absurd hc (by decide)
      have hmarked : markBreaks false (Text.trim content) = c :: markBreaks false rest := by
        rw [hcontent, markBreaks_cons hbreak]
      have hlf := lineFeed_not_mem_markBreaks false (Text.trim content)
      rw [hmarked] at hlf ⊢
      refine ⟨_, [], rfl, by simp, Or.inr ⟨c, _, rfl, hc, hlf, fun hslash => ⟨hname, ?_⟩⟩⟩
      rw [hcontent]
      exact startsWithOneSlash_of_markBreaks hslash
    · split
      · refine ⟨_, _, rfl, ?_, Or.inl rfl⟩
        intro entry hmem
        obtain ⟨line, -, rfl⟩ := List.mem_map.1 hmem
        exact ⟨line, rfl⟩
      · split
        · refine ⟨_, _, rfl, ?_, Or.inl rfl⟩
          intro entry hmem
          exact ⟨_, List.mem_singleton.1 hmem⟩
        · next hslash =>
          have htrim : Text.trim (Text.trim content) ≠ [] := by rwa [Text.trim_trim]
          obtain ⟨c, rest, hcollapse, hc⟩ := Text.collapse_eq_cons htrim
          have hlf := Text.lineFeed_not_mem_collapse (Text.trim content)
          rw [hcollapse] at hslash hlf ⊢
          refine ⟨_, [], rfl, by simp, Or.inr ⟨c, rest, rfl, hc, hlf, fun hone => ?_⟩⟩
          rw [startsWithOneSlash_cons, Bool.and_eq_true, decide_eq_true_eq] at hone
          exact absurd (congrArg some hone.1) hslash

theorem isSheltered_inline (layout : Layout) (depth : Nat) (e : Element) (content : Text) :
    IsSheltered (layout.width * depth)
      (rowsAs layout (inlineKind e content) .own (inlineEntries depth e content)) := by
  obtain ⟨first, pipes, hentries, hpipes, hfirst⟩ := inlineEntries_cases depth e content
  rw [hentries, rowsAs]
  refine IsSheltered.append ?_ (isSheltered_pipes hpipes layout _)
  rw [inlineKind]
  split
  · exact isSheltered_rows_irregular layout _ _
  · next hslash =>
    rcases hfirst with rfl | ⟨c, text, rfl, hc, hlf, hone⟩
    · exact isSheltered_bare e le_rfl
    · rw [tagKind]
      split
      · next hwhole =>
        refine isSheltered_inlineRow hwhole hc ?_ hlf layout depth
        by_contra htrue
        rw [Bool.not_eq_false] at htrue
        exact hslash (by simpa using hone htrue)
      · exact isSheltered_rows_irregular layout _ _

/-! ## Nodes -/

theorem isSheltered_text (layout : Layout) (depth : Nat) (content : Text) (margin : Nat) :
    IsSheltered margin (rowsAs layout .own .own (textEntries depth content)) := by
  have hpipes : ∀ entry ∈ textEntries depth content, ∃ line, entry = ⟨depth, pipe line⟩ := by
    intro entry hentry
    rw [textEntries] at hentry
    split at hentry
    · cases hentry
    · exact ⟨_, List.mem_singleton.1 hentry⟩
    · obtain ⟨line, -, rfl⟩ := List.mem_map.1 hentry
      exact ⟨line, rfl⟩
  rw [rowsAs_self]
  exact isSheltered_pipes hpipes layout margin

/-- The word that begins a block of code would be text below a shallower line, but it stands at
the margin. -/
theorem isSheltered_codeLines (layout : Layout) (depth : Nat) (entries : List Entry) :
    IsSheltered (layout.width * depth)
      (rowsAs layout .own .carriedOn (⟨depth, "ruby:".toList⟩ :: entries)) :=
  isSheltered_line (by decide) rfl rfl rfl le_rfl entries

theorem isSheltered_output (layout : Layout) (depth margin : Nat) (expression ending : Text)
    (entries : List Entry) :
    IsSheltered margin
      (rowsAs layout .own .carriedOn (⟨depth, outputText expression ++ ending⟩ :: entries)) := by
  obtain ⟨rest, houtput, -⟩ := outputText_eq_cons expression
  rw [houtput]
  exact isSheltered_signed (s := ['=']) (by decide) layout depth margin (rest ++ ending) entries

theorem isSheltered_outputLines (layout : Layout) (depth margin : Nat) (lines : List Text) :
    IsSheltered margin (rowsAs layout .own .carriedOn (outputLinesEntries depth lines)) := by
  fun_cases outputLinesEntries depth lines with
  | case1 => exact IsSheltered.nil margin
  | case2 only => simpa using isSheltered_output layout depth margin only [] []
  | case3 first more => exact isSheltered_output layout depth margin first _ _

theorem isSheltered_outputBody (layout : Layout) (depth margin : Nat) (body : Text) :
    IsSheltered margin (rowsAs layout .own .carriedOn
      (if body.isEmpty then [] else [⟨depth, outputText body⟩])) := by
  split
  · exact IsSheltered.nil margin
  · simpa using isSheltered_output layout depth margin body [] []

theorem isSheltered_codeBody (layout : Layout) (depth margin : Nat) (body : Text) :
    IsSheltered margin (rowsAs layout .own .carriedOn
      (if body.isEmpty then [] else [⟨depth, codeLine body⟩])) := by
  split
  · exact IsSheltered.nil margin
  · exact isSheltered_signed (s := ['-']) (by decide) layout depth margin (' ' :: body) []

theorem isSheltered_plainComment (layout : Layout) (depth margin : Nat) (lines : List Text) :
    IsSheltered margin (rowsAs layout .own .carriedOn (plainCommentEntries depth lines)) := by
  cases lines with
  | nil => exact isSheltered_signed (s := "/!".toList) (by decide) layout depth margin [] []
  | cons first more =>
    exact isSheltered_signed (s := "/!".toList) (by decide) layout depth margin (' ' :: first) _

/-- Only at no deeper indentation is the first row of a block of code the writer's own. -/
theorem commentKind_cases (content : Text) :
    commentKind content = .irregular ∨ commentKind content = .own ∧
      ((Directive.decode content).kind = some .codeLines →
        (Directive.decode content).extraIndent = 0) := by
  rw [commentKind]
  split
  · exact Or.inl rfl
  · next hshift =>
    refine Or.inr ⟨rfl, fun hlines => ?_⟩
    by_contra hdeeper
    exact hshift (by simp [hlines, hdeeper])

theorem isSheltered_comment (layout : Layout) (depth : Nat) (content : Text) :
    IsSheltered (layout.width * depth)
      (rowsAs layout (commentKind content) .carriedOn (commentEntries depth content)) := by
  rcases commentKind_cases content with hkind | ⟨hkind, hshift⟩
  · rw [hkind]
    exact isSheltered_irregular layout _ _
  · rw [hkind]
    simp only [commentEntries]
    split
    case h_1 hlines =>
      rw [hshift hlines]
      exact isSheltered_codeLines layout depth _
    case h_2 => exact isSheltered_outputLines layout _ _ _
    case h_3 => exact isSheltered_outputBody layout _ _ _
    case h_4 => exact isSheltered_outputBody layout _ _ _
    case h_5 => exact isSheltered_codeBody layout _ _ _
    case h_6 => exact isSheltered_codeBody layout _ _ _
    case h_7 => exact IsSheltered.nil _
    case h_8 => exact isSheltered_plainComment layout _ _ _

theorem isSheltered_block (layout : Layout) (depth margin : Nat) (isOutput : Bool) (code : Text) :
    IsSheltered margin ((Entry.mk depth (blockLine isOutput code)).rows layout .own) := by
  rw [blockLine]
  split
  · exact isSheltered_rows_signed (s := ['=']) (by decide) layout depth margin (' ' :: code)
  · exact isSheltered_rows_signed (s := ['-']) (by decide) layout depth margin (' ' :: code)

theorem margin_le (layout : Layout) (depth : Nat) :
    layout.width * depth ≤ layout.width * (depth + 1) :=
  Nat.mul_le_mul_left layout.width depth.le_succ

mutual

/-- The rows of a node are sheltered at its margin. -/
theorem isSheltered_nodeRows (layout : Layout) (depth : Nat) :
    ∀ node : Node, IsSheltered (layout.width * depth) (nodeRows layout depth node)
  | .text content => by
    rw [nodeRows]
    exact isSheltered_text layout depth content _
  | .comment content => by
    rw [nodeRows]
    exact isSheltered_comment layout depth content
  | .block isOutput code children => by
    rw [nodeRows]
    split
    · exact isSheltered_nodesRows layout depth children
    · -- A line of code has no text behind a head, so deeper rows may follow it.
      exact IsSheltered.nest (fun margin _ => isSheltered_block layout depth margin isOutput code)
        (Entry.rows_ne_nil _ _ _) (margin_le layout depth)
        (isSheltered_nodesRows layout (depth + 1) children)
  | .element name attributes children => by
    rw [nodeRows]
    split
    · exact isSheltered_bare _ le_rfl
    · cases singleText? children with
      | some content => exact isSheltered_inline layout depth _ content
      | none =>
        exact IsSheltered.nest (fun margin h => isSheltered_bare _ h) (Entry.rows_ne_nil _ _ _)
          (margin_le layout depth) (isSheltered_nodesRows layout (depth + 1) children)

/-- The rows of nodes side by side are sheltered at their margin. -/
theorem isSheltered_nodesRows (layout : Layout) (depth : Nat) :
    ∀ nodes : List Node, IsSheltered (layout.width * depth) (nodesRows layout depth nodes)
  | [] => IsSheltered.nil _
  | node :: nodes => by
    rw [nodesRows]
    exact (isSheltered_nodeRows layout depth node).append
      (isSheltered_nodesRows layout depth nodes)

end

theorem isSheltered_doctype (layout : Layout) (doctype : Doctype) :
    IsSheltered 0 ((Entry.mk 0 doctype.line).rows layout .own) := by
  have hlf : '\n' ∉ doctype.line := by cases doctype <;> decide
  have hquiet : headAndText? (Text.trim doctype.line) = none ∧
      isSlashText (Text.trim doctype.line) = false := by
    cases doctype <;> exact ⟨rfl, rfl⟩
  have hspaces : spacesBefore doctype.line = 0 := by cases doctype <;> rfl
  rw [← rowsAs_singleton layout .own .carriedOn]
  exact isSheltered_line hlf hquiet.1 hquiet.2 hspaces (Nat.mul_zero _).le []

theorem isSheltered_rows (layout : Layout) (document : Document) :
    IsSheltered 0 (document.rows layout) := by
  have hnodes := isSheltered_nodesRows layout 0 document.nodes
  rw [Nat.mul_zero] at hnodes
  rw [Document.rows]
  refine IsSheltered.append ?_ hnodes
  cases document.doctype with
  | none => exact IsSheltered.nil 0
  | some doctype => exact isSheltered_doctype layout doctype

/-! ## Repairs of written documents -/

theorem lineFeed_not_mem_physicalLines {line : Text} {entries : List Entry}
    (h : line ∈ physicalLines layout entries) : '\n' ∉ line := by
  obtain ⟨entry, -, hline⟩ := List.mem_flatMap.1 h
  exact Text.not_mem_of_mem_splitOn hline

/-- A document is read line by line as it was written. -/
theorem numberFrom_toSlim (layout : Layout) (document : Document)
    (h : document.rows layout ≠ []) :
    numberFrom 1 (Text.lines (document.toSlim layout)) = linesOf (document.rows layout) := by
  rw [document.toSlim_eq_unlines, Text.lines_unlines (by simpa using h), linesOf]
  rw [document.map_text_rows]
  exact fun line hline => lineFeed_not_mem_physicalLines hline

/-- Repairs of a written document start at exposed rows only. -/
theorem isExposed_of_mem_fixes (options : RepairOptions) (document : Document) {fix : Fix}
    (h : fix ∈ (repair options (document.toSlim options.layout)).fixes) :
    ∃ i, fix.number = i + 1 ∧ IsExposed (document.rows options.layout) i := by
  by_cases hrows : document.rows options.layout = []
  · -- A document without rows is one empty line.
    have hlines : numberFrom 1 (Text.lines (document.toSlim options.layout)) = [⟨1, []⟩] := by
      rw [document.toSlim_eq_unlines, hrows]
      rfl
    rw [repair_eq, hlines, settle_of_isSettled (isSettled_empty options)] at h
    cases h
  · rw [repair_eq, numberFrom_toSlim options.layout document hrows] at h
    exact (isSheltered_rows options.layout document).isConfined.may_number h

end Repair

/-- A converted document is its rows, each ended by a line feed, none of them irregular if its
nodes are regular. All of its repairs start at exposed rows, and where all rows are the writer's
own, nothing is repaired. -/
theorem repair_htmlToSlim (options : RepairOptions) (source : Text) :
    let document := Markup.Document.ofHtml source
    let rows := document.rows options.layout
    let result := repair options (htmlToSlim options.layout source)
    htmlToSlim options.layout source = Text.unlines (rows.map (·.text)) ++ ['\n'] ∧
      (Markup.nodesAreRegular document.nodes → ∀ row ∈ rows, row.kind ≠ .irregular) ∧
      (∀ fix ∈ result.fixes, ∃ i, fix.number = i + 1 ∧ Writer.IsExposed rows i) ∧
      ((∀ row ∈ rows, row.kind = .own) → result.isChanged = false) := by
  intro document rows result
  have hexposed : ∀ fix ∈ result.fixes, ∃ i, fix.number = i + 1 ∧ Writer.IsExposed rows i :=
    fun fix hfix => Repair.isExposed_of_mem_fixes options document hfix
  refine ⟨document.toSlim_eq_unlines options.layout, fun hregular => ?_, hexposed, fun hown => ?_⟩
  · exact fun row hrow => document.kind_ne_irregular hregular hrow
  · have hfixes : result.fixes = [] := by
      refine List.eq_nil_iff_forall_not_mem.2 fun fix hfix => ?_
      obtain ⟨i, -, row, hrow, hkind | ⟨next, hnext, hkind, -⟩⟩ := hexposed fix hfix
      · exact hkind (hown row (List.mem_of_getElem? hrow))
      · rw [hown next (List.mem_of_getElem? hnext)] at hkind
        cases hkind
    rw [Repair.Result.isChanged, hfixes]
    rfl

/-- A page with text that starts with a slash and text over two lines. -/
def pricePage : Text :=
  "<b>5</b><i>/month</i><% if x %><p class=\"n\">one\n two</p><% end %>".toList

/-- No row of the page is one that a repair might touch. -/
theorem repair_htmlToSlim_pricePage :
    htmlToSlim .standard pricePage =
        "b 5\ni\n  | /month\n- if x\n  p.n\n    | one\n    | two\n".toList ∧
      (repair .standard (htmlToSlim .standard pricePage)).isChanged = false :=
  ⟨by decide +kernel, (repair_htmlToSlim .standard pricePage).2.2.2 (by decide +kernel)⟩

/-- A block of code with a condition. -/
def conditionalCode : Text :=
  "<%\n  if a\n    b\n  end\n%>".toList

/-- The body of a block of code may look like an element with text over two lines. -/
theorem isChanged_repair_conditionalCode :
    htmlToSlim .standard conditionalCode = "ruby:\n  if a\n    b\n  end\n".toList ∧
      (repair .standard (htmlToSlim .standard conditionalCode)).fixes = [.multiline 2] ∧
      (repair .standard (htmlToSlim .standard conditionalCode)).isChanged = true := by
  decide +kernel

end SlimTemplate
