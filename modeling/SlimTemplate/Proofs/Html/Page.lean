import SlimTemplate.Conversion
import SlimTemplate.Proofs.Directive.CodeLine
import SlimTemplate.Proofs.Html.Reads
import SlimTemplate.Proofs.Html.Verbatim
import SlimTemplate.Proofs.Html.Walk
import SlimTemplate.Proofs.Text.Mention

/-!
# Pages of text, tags and code

The code of a page travels through the construction of the tree as comments, and the rules of HTML
put these where they have to: before the root, out of a table, behind the body. None is lost on the
way, and what is kept of the tree is written in tree order.

## Main definitions

* `PagePart`: text, a tag, or code on one line.
* `PagePart.IsReadable`: parts that are what they are called.
* `PagePart.SpareForeign`: pages all of whose elements are written with their children.
* `Html.Scope.page`: the scope in which a page is built.
* `Markup.codes`: the code that nodes carry, in tree order.

## Main statements

* `PagePart.reads_markup`: a page is read part by part.
* `Html.parse_comments`: the tree of a text has the comments that are read.
* `PagePart.htmlToSlim_codeLines`: the code of a page is in its tree, and on lines of its own.
-/

namespace SlimTemplate

open Directive (IsCodeLine)

/-- A part of a page. -/
inductive PagePart where
  | text (content : Text)
  /-- A tag: the character after its `<`, and what follows up to and with its `>`. -/
  | tag (first : Char) (rest : Text)
  /-- Code between the delimiters of a directive, with a space on each side. -/
  | code (line : Text)
  deriving DecidableEq, Repr

namespace PagePart

/-- A part as written. -/
def source : PagePart → Text
  | .text content => content
  | .tag first rest => '<' :: first :: rest
  | .code line => "<% ".toList ++ line ++ " %>".toList

/-- The code of a part. -/
def code? : PagePart → Option Text
  | .code line => some line
  | .text _ | .tag _ _ => none

/-- The tag that a part is read as. -/
def tag? : PagePart → Option Html.Tag
  | .tag first rest =>
    match Html.scan false (Html.normalize.unifyLineEnds ('<' :: first :: rest)) with
    | ([.tag meant], []) => some meant
    | _ => none
  | .text _ | .code _ => none

/-- Whether a part is what it is called. A tag is complete for those who read directives and for
those who read HTML, its element holds no raw text, and it is not a set of frames. -/
def IsReadable : PagePart → Prop
  | .text content => '<' ∉ content
  | .tag first rest =>
    (first.isAlpha || first = '/') = true ∧ Directive.ClosesTag none false (rest.map .char) ∧
      ∃ meant, (PagePart.tag first rest).tag? = some meant ∧
        (meant.kind = .start → Html.isRawElement meant.name = false ∧ meant.name ≠ "frameset")
  | .code line => IsCodeLine line

/-- A part as a piece of a text with directives. -/
def piece : PagePart → Directive.Piece
  | .text content => .text content
  | .tag first rest => .tag first (rest.map .char)
  | .code line => .directive (' ' :: (line ++ [' ']))

/-- What the passes over directives make of a part. -/
def markup : PagePart → Text
  | .text content => content
  | .tag first rest => '<' :: first :: rest
  | .code line => "<!--".toList ++ ("SLIM_CODE:".toList ++ line ++ "-->".toList)

variable {part : PagePart} {parts : List PagePart}

theorem piece_source (part : PagePart) : part.piece.source = part.source := by
  cases part with
  | text content => rfl
  | tag first rest =>
    rw [piece, Directive.Piece.source, Html.flatMap_source_map_char]
    rfl
  | code line => simp [piece, Directive.Piece.source, Directive.delimited, source]

theorem IsReadable.isWellFormed (h : part.IsReadable) : part.piece.IsWellFormed := by
  cases part with
  | text content => exact h
  | tag first rest => exact ⟨h.1, h.2.1⟩
  | code line =>
    obtain ⟨hlt, hpercent⟩ := IsCodeLine.plain h
    simp [piece, Directive.Piece.IsWellFormed, Directive.IsPlain, hlt, hpercent]

theorem carried_eq_nil (part : PagePart) : part.piece.carried = [] := by
  cases part with
  | tag first rest =>
    refine List.filterMap_eq_nil_iff.2 fun piece hpiece => ?_
    obtain ⟨c, -, rfl⟩ := List.mem_map.1 hpiece
    rfl
  | _ => rfl

theorem numberedParts_map_char (n : Nat) (text : Text) :
    Directive.numberedParts n (text.map .char) = text := by
  induction text with
  | nil => rfl
  | cons c text ih => rw [List.map_cons, Directive.numberedParts, ih]

theorem rewritten_piece (h : part.IsReadable) (n : Nat) : part.piece.rewritten n = part.markup := by
  cases part with
  | text content => rfl
  | tag first rest =>
    rw [piece, Directive.Piece.rewritten, numberedParts_map_char]
    rfl
  | code line => exact IsCodeLine.rewrite_eq h

/-- The passes turn the code of a page into comments and leave the rest as it is. -/
theorem toMarkup_source (h : ∀ part ∈ parts, part.IsReadable) :
    Directive.toMarkup (parts.flatMap source) = parts.flatMap markup := by
  have hsource : parts.flatMap source = (parts.map piece).flatMap Directive.Piece.source := by
    rw [List.flatMap_map]
    exact List.flatMap_congr fun part _ => part.piece_source.symm
  have hcarried : (parts.map piece).flatMap Directive.Piece.carried = [] := by
    rw [List.flatMap_map]
    exact List.flatMap_eq_nil_iff.2 fun part _ => part.carried_eq_nil
  have hwf : ∀ p ∈ parts.map piece, p.IsWellFormed := by
    intro p hp
    obtain ⟨part, hpart, rfl⟩ := List.mem_map.1 hp
    exact (h part hpart).isWellFormed
  have hrewritten : ∀ n, Directive.rewritten n (parts.map piece) = parts.flatMap markup := by
    clear hsource hcarried hwf
    induction parts with
    | nil => exact fun _ => rfl
    | cons part parts ih =>
      obtain ⟨hpart, hparts⟩ := List.forall_mem_cons.1 h
      intro n
      rw [List.map_cons, Directive.rewritten, rewritten_piece hpart, ih hparts, List.flatMap_cons]
  rw [hsource, Directive.toMarkup_source_eq hwf, hcarried, hrewritten, Directive.putBack_nil]

/-! ## Tokens -/

/-- The tokens of a page: the comments that carry its code in order, its tags, and characters. -/
structure Gives (parts : List PagePart) (tokens : List Html.Token) : Prop where
  comments : tokens.filterMap Html.Token.comment? =
    (parts.filterMap code?).map fun line => "SLIM_CODE:".toList ++ line
  tokens : ∀ token ∈ tokens, token.IsPlain ∨ (∃ data, token = .comment data) ∨
    ∃ meant ∈ parts.filterMap tag?, token = .tag meant

open Html (Reads)
open Html.normalize (unifyLineEnds)

theorem markup_getLast? (h : part.IsReadable) (htext : ∀ content, part ≠ .text content) :
    part.markup.getLast? = some '>' := by
  cases part with
  | text content => exact absurd rfl (htext content)
  | tag first rest =>
    obtain ⟨more, hmore⟩ := h.2.1.eq_append
    have hrest := congrArg (List.flatMap Directive.TagPart.source) hmore
    rw [Html.flatMap_source_map_char, List.flatMap_append] at hrest
    rw [markup, hrest]
    show ('<' :: first :: more.flatMap Directive.TagPart.source ++ ['>']).getLast? = _
    rw [List.getLast?_concat]
  | code line =>
    have hne : "-->".toList ≠ [] := by decide
    rw [markup, List.getLast?_append_of_ne_nil _ (by simp), List.getLast?_append_of_ne_nil _ hne]
    rfl

/-- A run of text before markup is read as plain tokens. -/
theorem reads_text {text rest : Text} {tokens : List Html.Token} (h : '<' ∉ text)
    (hrest : rest = [] ∨ rest.head? = some '<') (hreads : Reads (unifyLineEnds rest) tokens) :
    ∃ plain, (∀ token ∈ plain, token.IsPlain) ∧
      Reads (unifyLineEnds (text ++ rest)) (plain ++ tokens) := by
  by_cases hne : text = []
  · exact ⟨[], by simp, by rwa [hne]⟩
  have hlt : '<' ∉ unifyLineEnds text := fun hmem =>
    (Html.mem_of_mem_unifyLineEnds hmem).elim (by decide) h
  have hhead : rest.head? ≠ some '\n' ∧
      (unifyLineEnds rest = [] ∨ (unifyLineEnds rest).head? = some '<') := by
    rcases hrest with rfl | hrest
    · exact ⟨by simp, .inl rfl⟩
    · obtain ⟨after, rfl⟩ := List.head?_eq_some_iff.1 hrest
      exact ⟨by simp, .inr rfl⟩
  rw [Html.unifyLineEnds_append (.inr hhead.1)]
  refine ⟨_, Html.charsMeant_isPlain (unifyLineEnds text), .step ?_ (fun inForeign => ?_) hreads⟩
  · exact List.append_ne_nil_of_left_ne_nil (Html.unifyLineEnds_ne_nil hne) _
  · exact Html.scan_text (Html.unifyLineEnds_ne_nil hne) hlt hhead.2 inForeign

theorem Gives.plain_append {plain tokens : List Html.Token} (h : Gives parts tokens)
    (hplain : ∀ token ∈ plain, token.IsPlain) : Gives parts (plain ++ tokens) := by
  refine ⟨?_, List.forall_mem_append.2 ⟨fun token htoken => .inl (hplain token htoken), h.tokens⟩⟩
  rw [List.filterMap_append, Html.filterMap_comment?_of_isPlain hplain]
  exact h.comments

/-- A tag that the page has gives that tag. -/
theorem Gives.cons_tag {tokens : List Html.Token} (h : Gives parts tokens) {first : Char}
    {more : Text} {meant : Html.Tag} (hmeant : (PagePart.tag first more).tag? = some meant) :
    Gives (.tag first more :: parts) (.tag meant :: tokens) := by
  refine ⟨h.comments, ?_⟩
  rw [List.filterMap_cons_some hmeant]
  refine List.forall_mem_cons.2
    ⟨.inr (.inr ⟨meant, List.mem_cons_self, rfl⟩), fun token htoken => ?_⟩
  refine (h.tokens token htoken).imp_right (.imp_right fun ⟨other, hother, heq⟩ => ?_)
  exact ⟨other, List.mem_cons_of_mem _ hother, heq⟩

/-- A line of code gives the comment that carries it. -/
theorem Gives.cons_code {tokens : List Html.Token} (h : Gives parts tokens) (line : Text) :
    Gives (.code line :: parts) (.comment ("SLIM_CODE:".toList ++ line) :: tokens) :=
  ⟨congrArg (_ :: ·) h.comments, List.forall_mem_cons.2 ⟨.inr (.inl ⟨_, rfl⟩), h.tokens⟩⟩

/-- The markup of a tag is read as the tag. -/
theorem reads_tag {first : Char} {more : Text} {meant : Html.Tag}
    (hfirst : (first.isAlpha || first = '/') = true)
    (hmeant : (PagePart.tag first more).tag? = some meant) {rest : Text}
    {tokens : List Html.Token} (hreads : Reads rest tokens) :
    Reads (unifyLineEnds (PagePart.tag first more).markup ++ rest) (.tag meant :: tokens) := by
  have hne : first ≠ '\r' := by
    rintro rfl
    exact absurd hfirst (by decide)
  have hmarkup : unifyLineEnds ('<' :: first :: more) = '<' :: first :: unifyLineEnds more := by
    rw [Html.unifyLineEnds_cons (by decide), Html.unifyLineEnds_cons hne]
  have hscan : Html.scan false ('<' :: first :: unifyLineEnds more) = ([.tag meant], []) := by
    rw [← hmarkup]
    rw [tag?] at hmeant
    split at hmeant
    · next hscan => rw [hscan, Option.some.inj hmeant]
    · cases hmeant
  rw [markup, hmarkup]
  show Reads _ ([.tag meant] ++ tokens)
  exact .step (by simp) (fun inForeign => Html.scan_tag_append hfirst hscan inForeign _) hreads

/-- The comment that carries a line of code is read as it is. -/
theorem reads_code {line : Text} (hline : IsCodeLine line) {rest : Text}
    {tokens : List Html.Token} (hreads : Reads rest tokens) :
    Reads (unifyLineEnds (PagePart.code line).markup ++ rest)
      (.comment ("SLIM_CODE:".toList ++ line) :: tokens) := by
  have hreturn : '\r' ∉ (PagePart.code line).markup := by
    have hcode : '\r' ∉ line := fun hmem => (hline.oneLine _ hmem).2.1 rfl
    simp [markup, hcode]
  have hhyphens : ¬['-', '-'] <:+: "SLIM_CODE:".toList ++ line := by
    rw [Text.isInfix_append_left_iff (by simp) (by simp)]
    exact hline.not_hyphens
  have hnul : '\x00' ∉ "SLIM_CODE:".toList ++ line := by
    have hcode : '\x00' ∉ line := fun hmem => (hline.oneLine _ hmem).2.2 rfl
    simp [hcode]
  rw [Html.unifyLineEnds_eq hreturn]
  show Reads _ ([.comment ("SLIM_CODE:".toList ++ line)] ++ tokens)
  refine .step (by simp [markup]) (fun inForeign => ?_) hreads
  exact Html.scan_comment (by decide) (by decide) (by decide)
    (Html.Comment.leavesOpen_of_not_isInfix hhyphens) hnul inForeign _

/-- Markup is read as one token, which tells what it was made from. -/
theorem reads_part (h : part.IsReadable) (htext : ∀ content, part ≠ .text content) {rest : Text}
    {tokens : List Html.Token} (hgives : Gives parts tokens)
    (hreads : Reads (unifyLineEnds rest) tokens) :
    ∃ token, Reads (unifyLineEnds (part.markup ++ rest)) (token :: tokens) ∧
      Gives (part :: parts) (token :: tokens) := by
  have hlast : part.markup.getLast? ≠ some '\r' := by
    rw [markup_getLast? h htext]
    decide
  rw [Html.unifyLineEnds_append (.inl hlast)]
  cases part with
  | text content => exact absurd rfl (htext content)
  | tag first more =>
    obtain ⟨hfirst, -, meant, hmeant, -⟩ := h
    exact ⟨_, reads_tag hfirst hmeant hreads, hgives.cons_tag hmeant⟩
  | code line => exact ⟨_, reads_code h hreads, hgives.cons_code line⟩

/-- A page is read part by part, whatever text stands before it. -/
theorem reads_markup (h : ∀ part ∈ parts, part.IsReadable) {text : Text} (htext : '<' ∉ text) :
    ∃ tokens, Reads (unifyLineEnds (text ++ parts.flatMap markup)) tokens ∧
      Gives parts tokens := by
  induction parts generalizing text with
  | nil =>
    obtain ⟨plain, hall, hreads⟩ := reads_text htext (.inl rfl) .stop
    exact ⟨_, hreads, Gives.plain_append ⟨rfl, by simp⟩ hall⟩
  | cons part parts ih =>
    obtain ⟨hpart, hparts⟩ := List.forall_mem_cons.1 h
    rw [List.flatMap_cons]
    by_cases hcontent : ∃ content, part = .text content
    · obtain ⟨content, rfl⟩ := hcontent
      have hlt : '<' ∉ content := hpart
      have hboth : '<' ∉ text ++ content := by simp [htext, hlt]
      obtain ⟨tokens, hreads, hgives⟩ := ih hparts hboth
      rw [List.append_assoc] at hreads
      exact ⟨tokens, hreads, hgives.comments, hgives.tokens⟩
    · have hmarkup : ∀ content, part ≠ .text content := fun content heq => hcontent ⟨content, heq⟩
      obtain ⟨tokens, hreads, hgives⟩ := ih hparts (List.not_mem_nil (a := '<'))
      obtain ⟨token, hreads, hgives⟩ := reads_part hpart hmarkup hgives hreads
      have hhead : (part.markup ++ parts.flatMap markup).head? = some '<' := by
        cases part with
        | text content => exact absurd rfl (hmarkup content)
        | _ => rfl
      obtain ⟨plain, hall, hreads⟩ := reads_text htext (.inr hhead) hreads
      exact ⟨_, hreads, hgives.plain_append hall⟩

/-- What is left of a page without the character of text that it begins with. -/
theorem exists_tail (h : ∀ part ∈ parts, part.IsReadable) {c : Char} {rest : Text} (hc : c ≠ '<')
    (hmarkup : parts.flatMap markup = c :: rest) :
    ∃ others : List PagePart, (∀ part ∈ others, part.IsReadable) ∧ others.flatMap markup = rest ∧
      others.filterMap code? = parts.filterMap code? ∧
      others.filterMap tag? = parts.filterMap tag? := by
  induction parts with
  | nil => cases hmarkup
  | cons part parts ih =>
    obtain ⟨hpart, hparts⟩ := List.forall_mem_cons.1 h
    cases part with
    | text content =>
      cases content with
      | nil => exact ih hparts hmarkup
      | cons d content =>
        have hcontent : '<' ∉ content := fun hmem => hpart (List.mem_cons_of_mem _ hmem)
        exact ⟨.text content :: parts, List.forall_mem_cons.2 ⟨hcontent, hparts⟩,
          (List.cons.inj hmarkup).2, rfl, rfl⟩
    | tag first more => exact absurd (List.cons.inj hmarkup).1.symm hc
    | code line => exact absurd (List.cons.inj hmarkup).1.symm hc

/-- A page is read part by part, also where it begins with a byte order mark. -/
theorem reads_normalize (h : ∀ part ∈ parts, part.IsReadable) :
    ∃ tokens, Reads (Html.normalize (parts.flatMap markup)) tokens ∧ Gives parts tokens := by
  unfold Html.normalize
  split
  · next rest hmark =>
    obtain ⟨others, hothers, rfl, hcode, htags⟩ := exists_tail h (by decide) hmark
    obtain ⟨tokens, hreads, hgives⟩ := reads_markup hothers (List.not_mem_nil (a := '<'))
    exact ⟨tokens, hreads, hcode ▸ hgives.comments, htags ▸ hgives.tokens⟩
  · exact reads_markup h (List.not_mem_nil (a := '<'))

end PagePart

namespace Html

/-! ## The tree -/

/-- The tree of a text that is read as markup has the comments that are read, and what its elements
hold is written where only elements that are written with their children may hold something. -/
theorem parse_comments {scope : Scope} (hscope : scope.IsMarkup) (hdrops : ¬scope.dropsBody)
    (hstop : scope.Allows .stop) {text : Text} {tokens : List Token}
    (hreads : Reads (normalize text) tokens) (htokens : ∀ token ∈ tokens, scope.Allows token) :
    (Markup.nodesComments (parse text)).Perm (tokens.filterMap Token.comment?) ∧
      ((∀ name, scope.Fills name → isEmptyElement name.local = false) →
        Markup.nodesSpare (parse text)) := by
  have hcourse := Course.start.run hscope hstop (start_fits scope) hreads htokens
  have hkeeps := hcourse.keeps hdrops start_isSound start_isFilled
  have hcomments : (build text).arena.comments = tokens.filterMap Token.comment? := hkeeps.comments
  refine ⟨?_, fun hfills => ?_⟩
  · rw [← hcomments]
    exact hkeeps.isSound.arena.nodesComments_perm
  · exact hkeeps.isSound.arena.nodesSpare_toNodes hkeeps.isFilled.arena hfills _ _

/-- The scope in which a page is built: no raw text is read and no body is dropped. -/
def Scope.page (entersForeign : Prop) (opensForeign : Name → Prop) : Scope where
  makes _ _ := True
  opensForeign := opensForeign
  entersForeign := entersForeign
  enters mode := mode ≠ .text
  holdsRaw := False
  dropsBody := False
  enters_of_isInside mode h := by
    rintro rfl
    cases h

theorem Scope.page_isMarkup (entersForeign : Prop) (opensForeign : Name → Prop) :
    (Scope.page entersForeign opensForeign).IsMarkup :=
  ⟨fun h => h rfl, id⟩

theorem svgTagName_isEmptyElement {name : String} (h : isEmptyElement name = false) :
    isEmptyElement (svgTagName name) = false := by
  rw [svgTagName]
  cases hlookup : svgTagNames.lookup name with
  | none => exact h
  | some spelled =>
    have hall : ∀ entry ∈ svgTagNames, isEmptyElement entry.2 = false := by decide +kernel
    exact hall _ (mem_of_lookup hlookup)

theorem respell_isEmptyElement {tag : Tag} (h : isEmptyElement tag.name = false) (space : Space) :
    isEmptyElement (Builder.respell space tag).name = false := by
  cases space with
  | svg => exact svgTagName_isEmptyElement h
  | _ => exact h

/-- What the scope of a page asks of a tag. -/
theorem Scope.page_allows {entersForeign : Prop} {opensForeign : Name → Prop} {tag : Tag}
    (hplain : tag.kind = .start → isRawElement tag.name = false ∧ tag.name ≠ "frameset")
    (henters : tag.kind = .start → tag.name = "svg" ∨ tag.name = "math" → entersForeign)
    (hopens : tag.kind = .start → tag.selfClosing = false → ∀ space name,
      name = tag.name ∨ name = (Builder.respell space tag).name → opensForeign ⟨space, name⟩) :
    (Scope.page entersForeign opensForeign).Allows (.tag tag) where
  implied _ _ := trivial
  start other heq hkind := by
    obtain rfl := Token.tag.inj heq
    obtain ⟨hraw, hframes⟩ := hplain hkind
    exact {
      makes := trivial
      merges := fun _ _ _ _ _ _ => trivial
      image := fun _ => trivial
      foreign := fun space _ name hname =>
        ⟨trivial, fun hclosing => hopens hkind hclosing space name hname⟩
      entersForeign := henters hkind
      around := fun _ => ⟨trivial, trivial, trivial⟩
      raw := fun hholds => by rw [hraw] at hholds; cases hholds
      frameset := fun hname => absurd hname hframes }
  stop _ _ _ _ _ hmode := hmode

theorem Scope.page_allows_of_isPlain {entersForeign : Prop} {opensForeign : Name → Prop}
    {token : Token} (h : ∀ tag, token ≠ .tag tag) :
    (Scope.page entersForeign opensForeign).Allows token where
  implied _ _ := trivial
  start tag heq _ := absurd heq (h tag)
  stop tag heq _ _ := absurd heq (h tag)

end Html

namespace PagePart

variable {parts : List PagePart}

/-- The tree of a page has the code of the page in its comments. -/
theorem parse_markup (h : ∀ part ∈ parts, part.IsReadable) (entersForeign : Prop)
    (opensForeign : Html.Name → Prop)
    (htags : ∀ tag ∈ parts.filterMap tag?,
      (Html.Scope.page entersForeign opensForeign).Allows (.tag tag)) :
    (Markup.nodesComments (Html.parse (parts.flatMap markup))).Perm
        ((parts.filterMap code?).map fun line => "SLIM_CODE:".toList ++ line) ∧
      ((∀ name, (Html.Scope.page entersForeign opensForeign).Fills name →
          Html.isEmptyElement name.local = false) →
        Markup.nodesSpare (Html.parse (parts.flatMap markup))) := by
  obtain ⟨tokens, hreads, hgives⟩ := reads_normalize h
  rw [← hgives.comments]
  refine Html.parse_comments (Html.Scope.page_isMarkup entersForeign opensForeign) id
    (Html.Scope.page_allows_of_isPlain fun tag heq => by cases heq) hreads fun token htoken => ?_
  rcases hgives.tokens token htoken with hplain | ⟨data, rfl⟩ | ⟨tag, htag, rfl⟩
  · refine Html.Scope.page_allows_of_isPlain fun tag heq => ?_
    rw [heq] at hplain
    exact hplain
  · exact Html.Scope.page_allows_of_isPlain fun tag heq => by cases heq
  · exact htags tag htag

/-- Whether SVG and MathML are left out of a page, or all elements that are written without
children close themselves. -/
def SpareForeign (parts : List PagePart) : Prop :=
  (∀ tag ∈ parts.filterMap tag?, tag.kind = .start → tag.name ≠ "svg" ∧ tag.name ≠ "math") ∨
    ∀ tag ∈ parts.filterMap tag?, tag.kind = .start → Html.isEmptyElement tag.name = true →
      tag.selfClosing = true

theorem IsReadable.plain {tag : Html.Tag} (h : ∀ part ∈ parts, part.IsReadable)
    (htag : tag ∈ parts.filterMap tag?) (hkind : tag.kind = .start) :
    Html.isRawElement tag.name = false ∧ tag.name ≠ "frameset" := by
  obtain ⟨part, hpart, hmeant⟩ := List.mem_filterMap.1 htag
  cases part with
  | tag first rest =>
    obtain ⟨-, -, meant, hmeant', hplain⟩ := h _ hpart
    rw [hmeant, Option.some.injEq] at hmeant'
    exact hmeant' ▸ hplain (hmeant' ▸ hkind)
  | _ => cases hmeant

/-- Then no element of the tree has children that are not written. -/
theorem nodesSpare_parse (h : ∀ part ∈ parts, part.IsReadable) (hforeign : SpareForeign parts) :
    Markup.nodesSpare (Html.parse (parts.flatMap markup)) := by
  rcases hforeign with hnone | hclosing
  · refine (parse_markup h False (fun _ => True) fun tag htag => ?_).2 fun name hfills => ?_
    · refine Html.Scope.page_allows (IsReadable.plain h htag) (fun hkind hname => ?_)
        fun _ _ _ _ _ => trivial
      obtain ⟨hsvg, hmath⟩ := hnone tag htag hkind
      exact hname.elim hsvg hmath
    · cases hfills with
      | html hempty => exact hempty
      | foreign _ hin => exact hin.elim
  · refine (parse_markup h True (fun name => Html.isEmptyElement name.local = false)
      fun tag htag => ?_).2 fun name hfills => ?_
    · refine Html.Scope.page_allows (IsReadable.plain h htag) (fun _ _ => trivial)
        fun hkind hself space name hname => ?_
      have hempty : Html.isEmptyElement tag.name = false := by
        rw [Bool.eq_false_iff]
        intro hempty
        rw [hclosing tag htag hkind hempty] at hself
        cases hself
      rcases hname with rfl | rfl
      · exact hempty
      · exact Html.respell_isEmptyElement hempty space
    · cases hfills with
      | html hempty => exact hempty
      | foreign hempty _ => exact hempty

end PagePart

namespace Markup

/-- The code that nodes carry, in tree order. -/
def codes (nodes : List Node) : List Text :=
  (nodesComments nodes).filterMap Directive.codeOf?

/-- The comments that carry code have that code again. -/
theorem filterMap_codeOf? {lines : List Text} (h : ∀ line ∈ lines, IsCodeLine line) :
    (lines.map fun line => "SLIM_CODE:".toList ++ line).filterMap Directive.codeOf? = lines := by
  rw [List.filterMap_map]
  refine (List.filterMap_congr fun line hline => ?_).trans List.filterMap_some
  exact (h line hline).codeOf?_eq

theorem codes_subset {nodes others : List Node} (h : nodes ⊆ others) :
    codes nodes ⊆ codes others := by
  intro code hcode
  obtain ⟨content, hcontent, hcode⟩ := List.mem_filterMap.1 hcode
  rw [nodesComments_eq_flatMap, List.mem_flatMap] at hcontent
  obtain ⟨node, hnode, hcontent⟩ := hcontent
  refine List.mem_filterMap.2 ⟨content, ?_, hcode⟩
  rw [nodesComments_eq_flatMap]
  exact List.mem_flatMap.2 ⟨node, h hnode, hcontent⟩

namespace Document

variable {source : Text} (hdoctype : ¬Doctype.keyword <:+: Text.toAsciiLower source)
include hdoctype

theorem ofHtml_nodes : (ofHtml source).nodes =
    if mentionsRoot source then rootOnly (Html.parse (Directive.toMarkup source))
    else dissolveRoot (Html.parse (Directive.toMarkup source)) := by
  rw [ofHtml, Doctype.strip_eq hdoctype]

/-- The comments that are kept: those within the root of a whole document, all of a fragment. -/
theorem nodesComments_ofHtml : nodesComments (ofHtml source).nodes =
    nodesComments (if mentionsRoot source then rootOnly (Html.parse (Directive.toMarkup source))
      else Html.parse (Directive.toMarkup source)) := by
  rw [ofHtml_nodes hdoctype]
  split
  · rfl
  · exact nodesComments_dissolveRoot _

/-- Where no element of the tree has children that are not written, none that is kept has. -/
theorem nodesSpare_ofHtml (h : nodesSpare (Html.parse (Directive.toMarkup source))) :
    nodesSpare (ofHtml source).nodes := by
  rw [nodesSpare_iff] at h ⊢
  rw [ofHtml_nodes hdoctype]
  split
  · exact fun node hnode => h node (rootOnly_subset _ hnode)
  · exact forall_mem_dissolveRoot Node.Spares.children h

end Document

end Markup

namespace PagePart

open Markup

variable {parts : List PagePart}

theorem isCodeLine_of_mem (h : ∀ part ∈ parts, part.IsReadable) {line : Text}
    (hline : line ∈ parts.filterMap code?) : IsCodeLine line := by
  obtain ⟨part, hpart, hcode⟩ := List.mem_filterMap.1 hline
  cases part with
  | code other =>
    obtain rfl := Option.some.inj hcode
    exact h _ hpart
  | _ => cases hcode

/-- The code of a page is in its tree, each line of it once. -/
theorem codes_parse_perm (h : ∀ part ∈ parts, part.IsReadable) :
    (codes (Html.parse (parts.flatMap markup))).Perm (parts.filterMap code?) := by
  have hperm := (parse_markup h True (fun _ => True) fun tag htag =>
    Html.Scope.page_allows (IsReadable.plain h htag) (fun _ _ => trivial)
      fun _ _ _ _ _ => trivial).1.filterMap Directive.codeOf?
  rwa [filterMap_codeOf? fun line => isCodeLine_of_mem h] at hperm

/-- **The code of a page.** Each line of it is in the tree once, and what is kept of the tree has a
line of its own for each line of code in it, in tree order: all of them in a fragment, those within
the root in a whole document. -/
theorem htmlToSlim_codeLines (layout : Layout) (h : ∀ part ∈ parts, part.IsReadable)
    (hdoctype : ¬Doctype.keyword <:+: Text.toAsciiLower (parts.flatMap source))
    (hforeign : SpareForeign parts) :
    let page := parts.flatMap source
    let tree := Html.parse (Directive.toMarkup page)
    (codes tree).Perm (parts.filterMap code?) ∧
      ((codes (if mentionsRoot page then rootOnly tree else tree)).map Writer.codeLine).Sublist
        ((Text.lines (htmlToSlim layout page)).map Text.trimStart) := by
  intro page tree
  have htree : tree = Html.parse (parts.flatMap markup) :=
    congrArg Html.parse (toMarkup_source h)
  have hcodes : (codes tree).Perm (parts.filterMap code?) := htree ▸ codes_parse_perm h
  have hkept : codes (if mentionsRoot page then rootOnly tree else tree) ⊆ codes tree := by
    refine codes_subset ?_
    split
    · exact rootOnly_subset tree
    · exact List.Subset.refl _
  have hspare : nodesSpare tree := htree ▸ nodesSpare_parse h hforeign
  have hlines := Document.codeLines_sublist layout (Document.ofHtml page)
  rw [nodesReached_eq _ (Document.nodesSpare_ofHtml hdoctype hspare),
    Document.nodesComments_ofHtml hdoctype] at hlines
  refine ⟨hcodes, hlines fun line hline => ?_⟩
  have hcode := isCodeLine_of_mem h (hcodes.subset (hkept hline))
  exact ⟨fun hmem => (hcode.oneLine _ hmem).1 rfl, fun hmem => (hcode.oneLine _ hmem).2.1 rfl⟩

/-! ## Pages -/

theorem isCodeLine_singleton {c : Char} (h : c ∈ ['a', 'b', 'z']) : IsCodeLine [c] := by
  simp only [List.mem_cons, List.not_mem_nil, or_false] at h
  rcases h with rfl | rfl | rfl <;> exact {
    trim_eq := by decide
    ne_nil := List.cons_ne_nil _ _
    plain := by decide
    leaf := by decide
    not_hyphens := by decide
    not_standIn := by decide
    not_endsInIndent := Directive.not_endsInIndent (by decide)
    oneLine := List.forall_mem_singleton.2 (by decide) }

/-- Code in a paragraph and behind it. -/
def paragraph : List PagePart :=
  [.tag 'p' ">".toList, .code "a".toList, .text "x".toList, .tag '/' "p>".toList, .code "b".toList]

/-- Both lines of code come out. -/
theorem htmlToSlim_paragraph :
    (∀ part ∈ paragraph, part.IsReadable) ∧ SpareForeign paragraph ∧
      ["- a".toList, "- b".toList].Sublist
        ((Text.lines (htmlToSlim .standard (paragraph.flatMap source))).map Text.trimStart) := by
  have hreadable : ∀ part ∈ paragraph, part.IsReadable := by
    simp only [paragraph, List.forall_mem_cons]
    exact ⟨⟨by decide, by decide, ⟨.start, "p", [], false⟩, by decide +kernel, by decide⟩,
      isCodeLine_singleton (by decide), by simp [IsReadable],
      ⟨by decide, by decide, ⟨.stop, "p", [], false⟩, by decide +kernel, by decide⟩,
      isCodeLine_singleton (by decide), List.forall_mem_nil _⟩
  have hforeign : SpareForeign paragraph := .inl (by decide +kernel)
  have hkept : codes (if mentionsRoot (paragraph.flatMap source)
      then rootOnly (Html.parse (Directive.toMarkup (paragraph.flatMap source)))
      else Html.parse (Directive.toMarkup (paragraph.flatMap source))) =
        ["a".toList, "b".toList] := by
    decide +kernel
  have hlines := (htmlToSlim_codeLines .standard hreadable (by decide +kernel) hforeign).2
  rw [hkept] at hlines
  exact ⟨hreadable, hforeign, hlines⟩

/-- A whole document with code before its root, and behind its body. -/
def strayCode : List PagePart :=
  [.code "z".toList, .tag 'h' "tml>".toList, .tag '/' "body>".toList, .code "a".toList,
    .text "x".toList, .code "b".toList]

/-- The code before the root is left out. That behind the body is a child of the root, and the text
after it goes back into the body together with the code that follows. -/
theorem htmlToSlim_strayCode :
    (∀ part ∈ strayCode, part.IsReadable) ∧
      strayCode.flatMap source = "<% z %><html></body><% a %>x<% b %>".toList ∧
      let lines := (Text.lines (htmlToSlim .standard (strayCode.flatMap source))).map Text.trimStart
      lines = ["html", "head", "body", "| x", "- b", "- a"].map String.toList ∧
      "- z".toList ∉ lines ∧ ¬["- a".toList, "- b".toList].Sublist lines := by
  refine ⟨?_, rfl, by decide +kernel⟩
  simp only [strayCode, List.forall_mem_cons]
  exact ⟨isCodeLine_singleton (by decide),
    ⟨by decide, by decide, ⟨.start, "html", [], false⟩, by decide +kernel, by decide⟩,
    ⟨by decide, by decide, ⟨.stop, "body", [], false⟩, by decide +kernel, by decide⟩,
    isCodeLine_singleton (by decide), by simp [IsReadable], isCodeLine_singleton (by decide),
    List.forall_mem_nil _⟩

end PagePart

end SlimTemplate
