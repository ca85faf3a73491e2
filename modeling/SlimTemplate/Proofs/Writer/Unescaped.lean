import SlimTemplate.Conversion
import SlimTemplate.Proofs.Directive.Program
import SlimTemplate.Proofs.Html.Marker
import SlimTemplate.Proofs.Html.OneTag
import SlimTemplate.Proofs.Html.Page
import SlimTemplate.Proofs.Html.StructuralComment

/-!
# Unescaped output on its two paths

A second equals sign asks for unescaped output. It is part of the code, and where the code is
carried by a comment the writer takes the sign off and writes the line of unescaped output. A `do`
block is carried by a marker, whose own equals sign is the only one that is taken off, so the line
of the block has both signs with a space between them.

## Main definitions

* `Directive.unescaped`: a directive that asks for unescaped output.
* `Directive.IsRawExpression`: expressions that either path carries unchanged.

## Main statements

* `htmlToSlim_delimited`: a directive that is read as one node with one line.
* `htmlToSlim_unescaped`: what is written for unescaped output.
-/

namespace SlimTemplate

/-! ## Sources of one directive -/

namespace Directive

/-- Nothing that begins like a tag is in a directive, in small letters or not. -/
theorem not_isInfix_toAsciiLower_delimited {inner : Text} (h : IsPlain inner) {c : Char}
    (hc : c ≠ '%') (more : Text) :
    ¬ '<' :: c :: more <:+: Text.toAsciiLower (delimited inner) := by
  have hlower : Text.toAsciiLower (delimited inner) =
      '<' :: '%' :: Text.toAsciiLower (inner ++ ['%', '>']) := rfl
  have hrest : '<' ∉ '%' :: Text.toAsciiLower (inner ++ ['%', '>']) := by
    intro hmem
    have hmem : '<' ∈ Text.toAsciiLower ('%' :: (inner ++ ['%', '>'])) := hmem
    obtain ⟨d, hd, hlt⟩ := List.mem_map.1 hmem
    exact lt_not_mem_tail h (Text.eq_of_toLower_eq (by decide) hlt ▸ hd)
  rw [hlower, List.infix_cons_iff]
  rintro (hstart | hlater)
  · exact hc (List.cons_prefix_cons.1 (List.cons_prefix_cons.1 hstart).2).1
  · exact hrest (hlater.subset List.mem_cons_self)

end Directive

open Directive (IsPlain delimited toMarkup)
open Markup (Node dissolveRoot mentionsRoot)
open Writer (nodeEntries nodesEntries)

theorem Layout.indent_zero (layout : Layout) : layout.indent 0 = [] := by
  rw [Layout.indent, Nat.mul_zero]
  rfl

/-- The nodes of a directive that stands alone are at top level. -/
theorem Markup.Document.ofHtml_delimited {inner : Text} (h : IsPlain inner) :
    ofHtml (delimited inner) =
      ⟨none, dissolveRoot (Html.parse (toMarkup (delimited inner)))⟩ := by
  have hroot : mentionsRoot (delimited inner) = false := by
    rw [mentionsRoot, ← Bool.not_eq_true, Text.hasInfix_iff]
    exact Directive.not_isInfix_toAsciiLower_delimited h (by decide) _
  have hdoctype : Doctype.strip (delimited inner) = (none, delimited inner) :=
    Doctype.strip_eq (Directive.not_isInfix_toAsciiLower_delimited h (by decide) _)
  rw [ofHtml, hdoctype]
  simp only [hroot, Bool.false_eq_true, if_false]

/-- A directive that is read as nodes with one line is converted to that line. -/
theorem htmlToSlim_delimited (layout : Layout) {inner line : Text} (h : IsPlain inner)
    (hline : nodesEntries 0 (dissolveRoot (Html.parse (toMarkup (delimited inner)))) =
      [⟨0, line⟩]) :
    htmlToSlim layout (delimited inner) = line ++ ['\n'] := by
  have hentries : (Markup.Document.ofHtml (delimited inner)).entries = [⟨0, line⟩] := by
    rw [Markup.Document.ofHtml_delimited h, Markup.Document.entries, hline]
    rfl
  rw [htmlToSlim, Markup.Document.toSlim, hentries, List.map_singleton, Writer.Entry.line,
    layout.indent_zero]
  rfl

/-! ## Documents of one token -/

/-- The nodes of a fragment are those of its head and its body. -/
theorem Markup.dissolveRoot_sections (head body : List Node) :
    dissolveRoot [.element "html".toList []
      [Html.sectionNode "head" head, Html.sectionNode "body" body]] = head ++ body := by
  have hsections : dissolveSections [Html.sectionNode "head" head, Html.sectionNode "body" body] =
      head ++ (body ++ []) := rfl
  rw [List.append_nil] at hsections
  rw [← hsections]
  exact List.append_nil _

namespace Html

open Builder

/-- Markup without carriage returns that is one token is read as the document of that token. -/
theorem parse_of_head {source : Text} {token : Token} (hhead : source.head? = some '<')
    (hreturn : '\r' ∉ source) (hscan : scan false source = ([token], [])) :
    parse source = (Builder.start.take token).finish.nodes := by
  refine parse_oneToken ?_ (normalize_eq hhead hreturn) hscan
  rintro rfl
  cases hhead

/-- A marker that stands alone is an empty block. -/
theorem nodes_markerTag (code : Text) :
    (Builder.start.take (.tag (markerTag code))).finish.nodes =
      [.element "html".toList [] [sectionNode "head" [.ofMarker code []],
        sectionNode "body" []]] := by
  rw [take_template rfl rfl, markerTag, nodes_openTemplate]
  rfl

end Html

/-! ## Unescaped output -/

namespace Directive

/-- A directive that asks for unescaped output. -/
def unescaped (expression : Text) : Directive :=
  ⟨"<%=".toList, some '=', "= ".toList ++ expression ++ " ".toList, "%>".toList⟩

/-- A text whose arrows come back when the stand-ins for them are replaced. One that spells no
stand-in is such a text. -/
def RestoresArrows (text : Text) : Prop :=
  Text.replaceAll arrowStandIn arrow (Text.replaceAll arrow arrowStandIn text) = text

theorem RestoresArrows.cons {text : Text} (h : RestoresArrows text) {c : Char} (harrow : c ≠ '-')
    (hstandIn : c ≠ '_') : RestoresArrows (c :: text) := by
  have hno : ∀ {part more : Text} {d : Char}, c ≠ d → ¬d :: part <+: c :: more :=
    fun hne hfound => hne (List.cons_prefix_cons.1 hfound).1.symm
  have hin : Text.replaceAll arrow arrowStandIn (c :: text) =
      c :: Text.replaceAll arrow arrowStandIn text := Text.replaceAll_cons (hno harrow) _
  have hout : ∀ more, Text.replaceAll arrowStandIn arrow (c :: more) =
      c :: Text.replaceAll arrowStandIn arrow more :=
    fun more => Text.replaceAll_cons (hno hstandIn) _
  rw [RestoresArrows, hin, hout, h]

/-- An expression on one line that is carried unchanged: one that ends in a `do` block by a marker,
and any other by a comment. -/
structure IsRawExpression (expression : Text) : Prop where
  trim_eq : Text.trim expression = expression
  plain : IsPlain expression
  oneLine : ∀ c ∈ expression, c ≠ '\n' ∧ c ≠ '\r' ∧ c ≠ '\x00'
  /-- What a comment cannot hold as it is. -/
  in_comment : endsInDo expression = false → RestoresArrows expression ∧
    ¬"--!>".toList <:+: expression ∧ ¬EndsInIndent expression

variable {expression : Text}

theorem unescaped_source (expression : Text) :
    (unescaped expression).source = "<%== ".toList ++ expression ++ " %>".toList := by
  simp [unescaped, source]

/-- The code begins with the second equals sign. -/
theorem unescaped_code (expression : Text) :
    (unescaped expression).code = '=' :: Text.trimEnd (' ' :: expression) := by
  have hspace : ∀ c ∈ [' '], Text.isBlank c = true := List.forall_mem_singleton.2 (by decide)
  show Text.trim ('=' :: (' ' :: expression ++ [' '])) = _
  rw [Text.trim_cons_of_not_isBlank (by decide), Text.trimEnd_append_of_isBlank hspace]

theorem endsInDo_trimEnd (code : Text) : endsInDo (Text.trimEnd code) = endsInDo code := by
  rw [Bool.eq_iff_iff, endsInDo_iff, endsInDo_iff, Text.trimEnd_trimEnd]

/-- The second sign has no part in how the expression ends. -/
theorem endsInDo_unescaped_code (expression : Text) :
    endsInDo (unescaped expression).code = endsInDo expression := by
  have hsign : endsInDo (['='] ++ Text.trimEnd (' ' :: expression)) =
      endsInDo (Text.trimEnd (' ' :: expression)) := endsInDo_append (by decide) (by decide) _
  have hspace : endsInDo ([' '] ++ expression) = endsInDo expression :=
    endsInDo_append (by decide) (by decide) expression
  rw [unescaped_code]
  exact hsign.trans ((endsInDo_trimEnd _).trans hspace)

theorem unescaped_code_isPrefix (expression : Text) :
    (unescaped expression).code <+: "= ".toList ++ expression := by
  rw [unescaped_code]
  exact List.cons_prefix_cons.2 ⟨rfl, Text.trimEnd_isPrefix _⟩

theorem not_mem_unescaped_code {c : Char} (hequals : c ≠ '=') (hspace : c ≠ ' ')
    (hc : c ∉ expression) : c ∉ (unescaped expression).code := by
  intro hmem
  have hmem := (unescaped_code_isPrefix expression).subset hmem
  rcases List.mem_append.1 hmem with hmem | hmem
  · exact (List.mem_pair.1 hmem).elim hequals hspace
  · exact hc hmem

/-- What is not in the expression is not in its code. -/
theorem not_isInfix_unescaped_code {part : Text} (hne : part ≠ []) (hequals : '=' ∉ part)
    (hspace : ' ' ∉ part) (hpart : ¬part <:+: expression) :
    ¬part <:+: (unescaped expression).code := by
  intro hfound
  have hleft : ∀ c ∈ "= ".toList, c ∉ part := by
    intro c hc
    rcases List.mem_pair.1 hc with rfl | rfl
    · exact hequals
    · exact hspace
  have hfound := hfound.trans (unescaped_code_isPrefix expression).isInfix
  exact hpart ((Text.isInfix_append_left_iff hne hleft).1 hfound)

namespace IsRawExpression

variable (h : IsRawExpression expression)
include h

theorem isOneLine : (unescaped expression).IsOneLine := by
  have hplain : IsPlain ("= ".toList ++ expression) := by
    simpa [IsPlain] using h.plain
  have hline : '\n' ∉ "= ".toList ++ expression := by
    simpa using fun hmem => (h.oneLine _ hmem).1 rfl
  exact isOneLine_of_space (.inr (.inr rfl)) hplain hline fun heq => by cases heq

theorem trimEnd_cons_eq (hne : expression ≠ []) :
    Text.trimEnd (' ' :: expression) = ' ' :: expression := by
  refine Text.trimEnd_eq_self fun c hc => ?_
  obtain ⟨d, rest, rfl⟩ := List.exists_cons_of_ne_nil hne
  rw [List.getLast?_cons_cons, ← h.trim_eq] at hc
  exact Text.getLast?_trim_not_isBlank hc

/-- The writer takes the second sign off. -/
theorem outputText_code : Writer.outputText (unescaped expression).code =
    "== ".toList ++ expression := by
  have hspace : ∀ c ∈ [' '], Text.isBlank c = true := List.forall_mem_singleton.2 (by decide)
  have htrim : Text.trim (Text.trimEnd (' ' :: expression)) = expression := by
    rw [← Text.trim_append_of_isBlank_right (fun c hc => List.mem_rtakeWhile_imp hc)
      (Text.trimEnd (' ' :: expression)), Text.trimEnd_append_rtakeWhile]
    exact (Text.trim_append_of_isBlank_left hspace expression).trans h.trim_eq
  rw [unescaped_code, Writer.outputText, htrim]

theorem not_endsInIndent_code (hindent : ¬EndsInIndent expression) :
    ¬EndsInIndent (':' :: (unescaped expression).code) := by
  rintro ⟨before, digits, htrim, hne, hdigits⟩
  have hlast : ∀ c ∈ (unescaped expression).code.getLast?, Text.isBlank c = false :=
    fun c hc => Text.getLast?_trim_not_isBlank hc
  rw [trim_colon_cons hlast, unescaped_code, List.append_assoc] at htrim
  have hsuffix : indentLabel ++ digits <:+ Text.trimEnd (' ' :: expression) := by
    have hrequest : indentLabel ++ digits <:+ ':' :: '=' :: Text.trimEnd (' ' :: expression) :=
      ⟨before, htrim.symm⟩
    rcases List.suffix_cons_iff.1 hrequest with heq | hrequest
    · exact absurd (List.cons.inj (List.cons.inj heq).2).1 (by decide)
    · rcases List.suffix_cons_iff.1 hrequest with heq | hrequest
      · exact absurd (List.cons.inj heq).1 (by decide)
      · exact hrequest
  rcases eq_or_ne expression [] with rfl | hexpression
  · exact absurd (List.suffix_nil.1 hsuffix) (by simp [hne])
  · rw [h.trimEnd_cons_eq hexpression] at hsuffix
    rcases List.suffix_cons_iff.1 hsuffix with heq | ⟨start, hstart⟩
    · exact absurd (List.cons.inj heq).1 (by decide)
    · exact hindent ⟨start, digits, by rw [h.trim_eq, List.append_assoc, hstart], hne, hdigits⟩

theorem restoresArrows_code (harrow : RestoresArrows expression) :
    RestoresArrows (unescaped expression).code := by
  rw [unescaped_code]
  rcases eq_or_ne expression [] with rfl | hne
  · exact harrow.cons (by decide) (by decide)
  · rw [h.trimEnd_cons_eq hne]
    exact (harrow.cons (by decide) (by decide)).cons (by decide) (by decide)

/-- The code of a `do` block is carried by a marker. -/
theorem parse_marker (hdo : endsInDo expression = true) :
    Html.parse (toMarkup (unescaped expression).source) = [.element "html".toList []
      [Html.sectionNode "head" [.block true ("= ".toList ++ expression) []],
        Html.sectionNode "body" []]] := by
  have hline := h.isOneLine
  have hopener : (unescaped expression).isOpener = true := by
    rw [Directive.isOpener, endsInDo_unescaped_code, hdo, Bool.or_true]
  have hmarkup : toMarkup (unescaped expression).source =
      openingTag ('=' :: (unescaped expression).code) := by
    rw [hline.isTagFree.toMarkup_eq, rewrite_opener hline hopener]
    rfl
  have hcode : (unescaped expression).code = "= ".toList ++ expression := by
    rw [unescaped_code, h.trimEnd_cons_eq]
    · rfl
    · rintro rfl
      exact absurd hdo (by decide)
  have hmem : ∀ {c}, c ≠ '=' → c ≠ ' ' → c ∉ expression → c ∉ '=' :: (unescaped expression).code :=
    fun hequals hspace hc => List.not_mem_cons_of_ne_of_not_mem hequals
      (not_mem_unescaped_code hequals hspace hc)
  have hnul := hmem (by decide) (by decide) fun hmem => (h.oneLine _ hmem).2.2 rfl
  have hreturn := hmem (by decide) (by decide) fun hmem => (h.oneLine _ hmem).2.1 rfl
  have hscan := Html.scan_openingTag hnul false []
  rw [List.append_nil] at hscan
  have hsource := not_mem_openingTag (by decide) hreturn
  have hnode : Node.ofMarker ('=' :: (unescaped expression).code) [] =
      .block true ("= ".toList ++ expression) [] := by
    rw [Node.ofMarker, ← hcode]
    exact congrArg (Node.block true · []) (Text.trim_trim _)
  rw [hmarkup, Html.parse_of_head rfl hsource hscan, Html.nodes_markerTag, hnode]

/-- Any other code is carried by a comment. -/
theorem parse_comment (hdo : endsInDo expression = false) :
    Html.parse (toMarkup (unescaped expression).source) =
      [.comment (commentData .output (unescaped expression).code), .element "html".toList []
        [Html.sectionNode "head" [], Html.sectionNode "body" []]] := by
  have hline := h.isOneLine
  have hleaf : (unescaped expression).isLeaf = true := by
    rw [isLeaf, Directive.isOpener, endsInDo_unescaped_code, hdo]
    rfl
  have hmarkup : toMarkup (unescaped expression).source =
      encode .output (unescaped expression).code := by
    rw [hline.isTagFree.toMarkup_eq, rewrite_leaf hline hleaf]
    rfl
  have hnul : '\x00' ∉ (unescaped expression).code :=
    not_mem_unescaped_code (by decide) (by decide) fun hmem => (h.oneLine _ hmem).2.2 rfl
  have hreturn : '\r' ∉ (unescaped expression).code :=
    not_mem_unescaped_code (by decide) (by decide) fun hmem => (h.oneLine _ hmem).2.1 rfl
  have hbang : ¬"--!>".toList <:+: (unescaped expression).code :=
    not_isInfix_unescaped_code (by decide) (by decide) (by decide) (h.in_comment hdo).2.1
  have hsource : '\r' ∉ encode .output (unescaped expression).code := by
    have hdata := not_mem_commentData .output (.inr rfl) hreturn
    simp [encode, arrow, hdata]
  have hscan := scan_commentData .output (mem_closers_iff.2 (.inl rfl)) hbang hnul false []
  rw [List.append_nil, ← List.append_assoc] at hscan
  rw [hmarkup, Html.parse_of_head rfl hsource hscan, Html.nodes_comment]

/-- The comment is written as a line of unescaped output. -/
theorem commentEntries_eq (hdo : endsInDo expression = false) :
    Writer.commentEntries 0 (commentData .output (unescaped expression).code) =
      [⟨0, "== ".toList ++ expression⟩] := by
  obtain ⟨harrow, -, hindent⟩ := h.in_comment hdo
  have hlast : ∀ c ∈ (unescaped expression).code.getLast?, Text.isBlank c = false :=
    fun c hc => Text.getLast?_trim_not_isBlank hc
  have hdecode : Directive.decode (commentData .output (unescaped expression).code) =
      ⟨some .output, (unescaped expression).code, 0⟩ := by
    rw [decode_commentData (by decide) hlast (h.not_endsInIndent_code hindent),
      h.restoresArrows_code harrow]
  have htrim : Text.trim (unescaped expression).code = (unescaped expression).code :=
    Text.trim_trim _
  have hempty : ¬(unescaped expression).code.isEmpty = true := by
    rw [unescaped_code]
    exact Bool.false_ne_true
  simp only [Writer.commentEntries, hdecode, htrim, hempty, Bool.false_eq_true, if_false,
    h.outputText_code, Nat.add_zero]

end IsRawExpression

end Directive

open Directive (endsInDo unescaped)

/-- Unescaped output is written behind two equals signs, with a space between them if the
expression opens a `do` block. -/
theorem htmlToSlim_unescaped (layout : Layout) {expression : Text}
    (h : Directive.IsRawExpression expression) :
    htmlToSlim layout ("<%== ".toList ++ expression ++ " %>".toList) =
      (if endsInDo expression then "= = ".toList else "== ".toList) ++ expression ++
        "\n".toList := by
  obtain ⟨inner, hsource, hplain, -⟩ := h.isOneLine.exists_inner
  rw [← Directive.unescaped_source, hsource]
  refine htmlToSlim_delimited layout hplain ?_
  rw [← hsource]
  cases hdo : endsInDo expression with
  | true =>
    rw [h.parse_marker hdo, Markup.dissolveRoot_sections]
    rfl
  | false =>
    have hroot : dissolveRoot [Node.comment
        (Directive.commentData .output (unescaped expression).code), .element "html".toList []
        [Html.sectionNode "head" [], Html.sectionNode "body" []]] =
          [Node.comment (Directive.commentData .output (unescaped expression).code)] := rfl
    rw [h.parse_comment hdo, hroot, nodesEntries, nodeEntries, h.commentEntries_eq hdo]
    rfl

/-- A call, and a form with a block. -/
theorem htmlToSlim_unescaped_form :
    htmlToSlim .standard "<%== raw(x) %>".toList = "== raw(x)\n".toList ∧
      htmlToSlim .standard "<%== form_for x do |f| %>".toList =
        "= = form_for x do |f|\n".toList := by
  have hcall : Directive.IsRawExpression "raw(x)".toList :=
    ⟨by decide, by decide, Text.forall_of_all (by decide),
      fun _ => ⟨Directive.replaceAll_standIn_arrow (by decide), by decide,
        Directive.not_endsInIndent (by decide)⟩⟩
  have hform : Directive.IsRawExpression "form_for x do |f|".toList :=
    ⟨by decide, by decide, Text.forall_of_all (by decide), fun hdo => absurd hdo (by decide)⟩
  have hraw := htmlToSlim_unescaped .standard hcall
  have hblock := htmlToSlim_unescaped .standard hform
  rw [if_neg (by decide)] at hraw
  rw [if_pos (by decide)] at hblock
  exact ⟨hraw, hblock⟩

/-- So the first line of a block is not that of unescaped output. Neither is that of an expression
that a comment does not carry unchanged. -/
theorem htmlToSlim_unescaped_ne :
    (Text.lines (htmlToSlim .standard "<%== form_for x do |f| %>".toList)).head? ≠
        some "== form_for x do |f|".toList ∧
      ∀ expression ∈ ["a --!> b".toList, "a__SLIM_ARROW__".toList, "a :INDENT:1".toList,
          "a\rb".toList, "a\x00b".toList],
        (Text.lines (htmlToSlim .standard ("<%== ".toList ++ expression ++ " %>".toList))).head? ≠
          some ("== ".toList ++ expression) := by
  decide +kernel

end SlimTemplate
