import SlimTemplate.Proofs.Directive.PutBack
import SlimTemplate.Proofs.Directive.Role
import SlimTemplate.Proofs.Directive.SetAside

/-!
# The passes together act piece by piece

Text and tags come out of the passes as they are, with the directives that tags carry, and every
directive outside of tags becomes what the passes make of it alone. The one exception is markup
that spells the number of a directive that was set aside: code in which `-->` stands before the
rest of a placeholder does.

## Main definitions

* `Directive.Piece.toMarkup`: what a piece becomes on its own.
* `Directive.Piece.markup`: what a piece becomes where directives are put back.

## Main statements

* `Directive.toMarkup_source`: what a row of pieces becomes.
* `Directive.toMarkup_source_piecewise`: when this is what each piece becomes on its own.
-/

namespace SlimTemplate.Directive

/-- What a piece becomes on its own. -/
def Piece.toMarkup : Piece → Text
  | .text content => content
  | .directive inner => Directive.toMarkup (delimited inner)
  | piece@(.tag _ _) => piece.source

/-- What a piece becomes where these directives have been set aside. -/
def Piece.markup (stash : List Text) : Piece → Text
  | .text content => content
  | .directive inner => putBack stash (Directive.toMarkup (delimited inner))
  | piece@(.tag _ _) => piece.source

/-- A piece before directives are put back, with those that it carries numbered from `n` on. -/
def Piece.rewritten (n : Nat) : Piece → Text
  | .text content => content
  | .directive inner => rewrite (delimited inner)
  | .tag first parts => '<' :: first :: numberedParts n parts

/-- Pieces before directives are put back. -/
def rewritten (n : Nat) : List Piece → Text
  | [] => []
  | piece :: pieces => piece.rewritten n ++ rewritten (n + piece.carried.length) pieces

/-! ## Up to the last pass -/

theorem underscore_placeholder (n : Nat) : ∃ rest, placeholder n = '_' :: rest := by
  obtain ⟨tail, htail⟩ : ∃ tail, placeholderStart = '_' :: tail := ⟨_, rfl⟩
  exact ⟨tail ++ Text.ofNat n ++ "__".toList, by rw [placeholder, htail]; rfl⟩

theorem placeholder_isInert (n : Nat) : IsInert (placeholder n) := by
  refine isInert_of_not_mem ?_
  simp only [placeholder, List.mem_append, not_or]
  refine ⟨⟨by decide, ?_⟩, by decide⟩
  intro hmem
  exact absurd (Text.isDigit_of_mem_ofNat hmem) (by decide)

theorem head_numberedParts {parts : List TagPart} (h : parts.head? ≠ some (.char '%'))
    (hne : parts ≠ []) (n : Nat) : ∃ d rest, numberedParts n parts = d :: rest ∧ d ≠ '%' := by
  cases parts with
  | nil => exact absurd rfl hne
  | cons part parts =>
    cases part with
    | directive code =>
      obtain ⟨rest, hrest⟩ := underscore_placeholder n
      exact ⟨'_', _, by rw [numberedParts, hrest]; rfl, by decide⟩
    | char d =>
      refine ⟨d, _, rfl, ?_⟩
      rintro rfl
      exact h rfl

/-- A tag without the directives that it carries opens no directive. -/
theorem numberedParts_isInert {quote : Option Char} {afterEquals : Bool} {parts : List TagPart}
    (h : ClosesTag quote afterEquals parts) (n : Nat) : IsInert (numberedParts n parts) := by
  induction parts generalizing quote afterEquals n with
  | nil => trivial
  | cons part parts ih =>
    cases part with
    | directive code => exact (placeholder_isInert n).append (ih h.2 (n + 1))
    | char c =>
      rcases h.of_char with ⟨rfl, rfl, -⟩ | ⟨_, _, hparts, hlt, -⟩
      · exact ⟨fun hc => absurd hc (by decide), trivial⟩
      · exact ⟨fun hc => head_numberedParts (hlt hc) hparts.ne_nil n, ih hparts n⟩

theorem Piece.rewrite_append {piece : Piece} (h : piece.IsWellFormed) (n : Nat) (rest : Text) :
    rewrite (piece.numbered n ++ rest) = piece.rewritten n ++ rewrite rest := by
  cases piece with
  | text content =>
    have hinert := isInert_of_not_mem h
    rw [numbered, Directive.rewrite_append (.inert hinert), rewrite_of_isInert hinert, rewritten]
  | directive inner => exact Directive.rewrite_append (.delimited h) rest
  | tag first parts =>
    obtain ⟨hfirst, hparts⟩ := h
    have hinert : IsInert ('<' :: first :: numberedParts n parts) := by
      refine ⟨fun _ => ⟨first, _, rfl, ?_⟩, ?_, numberedParts_isInert hparts n⟩
      · rintro rfl
        exact absurd hfirst (by decide)
      · rintro rfl
        exact absurd hfirst (by decide)
    rw [numbered, Directive.rewrite_append (.inert hinert), rewrite_of_isInert hinert, rewritten]

theorem rewrite_numbered {pieces : List Piece} (h : ∀ piece ∈ pieces, piece.IsWellFormed)
    (n : Nat) : rewrite (numbered n pieces) = rewritten n pieces := by
  induction pieces generalizing n with
  | nil =>
    have hnil : IsInert [] := trivial
    rw [numbered, rewritten, rewrite_of_isInert hnil]
  | cons piece pieces ih =>
    rw [numbered, Piece.rewrite_append (h piece List.mem_cons_self), rewritten,
      ih fun p hp => h p (List.mem_cons_of_mem _ hp)]

/-- All passes but the last, over the pieces of a text. -/
theorem toMarkup_source_eq {pieces : List Piece} (h : ∀ piece ∈ pieces, piece.IsWellFormed) :
    toMarkup (pieces.flatMap Piece.source) =
      putBack (pieces.flatMap Piece.carried) (rewritten 0 pieces) := by
  rw [toMarkup_eq, setAside, setAsideFrom_source h, rewrite_numbered h]

theorem toMarkup_delimited {inner : Text} (h : IsPlain inner) :
    toMarkup (delimited inner) = rewrite (delimited inner) := by
  have hwf : ∀ piece ∈ [Piece.directive inner], piece.IsWellFormed := by
    intro piece hpiece
    obtain rfl := List.mem_singleton.1 hpiece
    exact h
  have heq := toMarkup_source_eq hwf
  simpa [Piece.source, Piece.carried, rewritten, Piece.rewritten, putBack_nil] using heq

/-! ## The last pass -/

/-- The directives of a tag are put back in their places. -/
theorem putBack_numberedParts {stash more : List Text} {parts : List TagPart} {n : Nat}
    (hstash : stash.drop n = parts.filterMap TagPart.directive? ++ more)
    (hsize : stash.length ≤ Text.maxSize) {before : Text}
    (hfree : ¬placeholderStart <:+: before ++ parts.flatMap TagPart.source) :
    putBack stash (before ++ numberedParts n parts) =
      before ++ parts.flatMap TagPart.source := by
  induction parts generalizing n before with
  | nil =>
    rw [numberedParts]
    exact putBack_of_not_isInfix stash hfree
  | cons part parts ih =>
    cases part with
    | char c =>
      have hmove : ∀ rest : Text, before ++ c :: rest = before ++ [c] ++ rest := by simp
      have hsource : (TagPart.char c :: parts).flatMap TagPart.source =
          c :: parts.flatMap TagPart.source := rfl
      rw [hsource, hmove] at hfree ⊢
      rw [numberedParts, hmove]
      exact ih hstash hfree
    | directive code =>
      obtain ⟨hdirective, hdrop⟩ : stash[n]? = some (delimited code) ∧
          stash.drop (n + 1) = parts.filterMap TagPart.directive? ++ more :=
        getElem?_of_drop_eq_cons hstash
      have hn : n ≤ Text.maxSize := by
        have hlt := (List.getElem?_eq_some_iff.1 hdirective).1
        omega
      have hsource : (TagPart.directive code :: parts).flatMap TagPart.source =
          delimited code ++ parts.flatMap TagPart.source := rfl
      rw [hsource] at hfree ⊢
      obtain ⟨hbefore, hafter⟩ := Text.not_isInfix_of_append hfree
      have hrest : ¬placeholderStart <:+: [] ++ parts.flatMap TagPart.source :=
        (Text.not_isInfix_of_append hafter).2
      rw [numberedParts, putBack_append_placeholder hbefore hdirective hn]
      have hih := ih hdrop hrest
      rw [List.nil_append, List.nil_append] at hih
      rw [hih]

theorem ClosesTag.eq_append {quote : Option Char} {afterEquals : Bool} {parts : List TagPart}
    (h : ClosesTag quote afterEquals parts) : ∃ more, parts = more ++ [.char '>'] := by
  induction parts generalizing quote afterEquals with
  | nil => simp [ClosesTag] at h
  | cons part parts ih =>
    cases part with
    | directive code =>
      obtain ⟨more, rfl⟩ := ih h.2
      exact ⟨.directive code :: more, rfl⟩
    | char c =>
      rcases h.of_char with ⟨rfl, rfl, -⟩ | ⟨_, _, hparts, -⟩
      · exact ⟨[], rfl⟩
      · obtain ⟨more, rfl⟩ := ih hparts
        exact ⟨.char c :: more, rfl⟩

theorem getLast?_numberedParts {quote : Option Char} {afterEquals : Bool} {parts : List TagPart}
    (h : ClosesTag quote afterEquals parts) (n : Nat) :
    (numberedParts n parts).getLast? = some '>' := by
  obtain ⟨more, rfl⟩ := h.eq_append
  rw [List.getLast?_eq_some_iff]
  clear h
  induction more generalizing n with
  | nil => exact ⟨[], rfl⟩
  | cons part more ih =>
    cases part with
    | char c =>
      obtain ⟨before, hbefore⟩ := ih n
      exact ⟨c :: before, by rw [List.cons_append, numberedParts, hbefore, List.cons_append]⟩
    | directive code =>
      obtain ⟨before, hbefore⟩ := ih (n + 1)
      exact ⟨placeholder n ++ before,
        by rw [List.cons_append, numberedParts, hbefore, List.append_assoc]⟩

theorem putBack_append_tag {stash more : List Text} {first : Char} {parts : List TagPart} {n : Nat}
    (hclose : ClosesTag none false parts)
    (hstash : stash.drop n = parts.filterMap TagPart.directive? ++ more)
    (hsize : stash.length ≤ Text.maxSize)
    (hfree : ¬placeholderStart <:+: (Piece.tag first parts).source) (rest : Text) :
    putBack stash ('<' :: first :: numberedParts n parts ++ rest) =
      (Piece.tag first parts).source ++ putBack stash rest := by
  have hopening : ¬placeholderStart <:+: ['<', first] ++ parts.flatMap TagPart.source := hfree
  have htag : putBack stash ('<' :: first :: numberedParts n parts) =
      (Piece.tag first parts).source :=
    putBack_numberedParts hstash hsize hopening
  have hlast : ('<' :: first :: numberedParts n parts).getLast? = some '>' := by
    obtain ⟨before, hbefore⟩ := List.getLast?_eq_some_iff.1 (getLast?_numberedParts hclose n)
    rw [hbefore, List.getLast?_eq_some_iff]
    exact ⟨'<' :: first :: before, rfl⟩
  rw [putBack_append_of_getLast? isSeparator_gt stash hlast, htag]

/-- Behind the text read so far, markup is read on its own: it begins with `<` and ends with `>`,
which no placeholder holds. -/
theorem putBack_append_markup {stash : List Text} {before markup : Text} (h : IsMarkup markup)
    (hne : markup ≠ []) (hbefore : putBack stash before = before) (rest : Text) :
    putBack stash (before ++ (markup ++ rest)) =
      before ++ (putBack stash markup ++ putBack stash rest) := by
  obtain ⟨-, hnil | ⟨m, rfl⟩⟩ := h
  · exact absurd hnil hne
  · have hlast : ('<' :: (m ++ ['>'])).getLast? = some '>' := by
      rw [List.getLast?_eq_some_iff]
      exact ⟨'<' :: m, rfl⟩
    rw [putBack_append_of_head? isSeparator_lt stash before rfl, hbefore,
      putBack_append_of_getLast? isSeparator_gt stash hlast]

/-- The last pass over pieces, where text has been read that no piece has ended yet. -/
theorem putBack_rewritten {stash : List Text} {pieces : List Piece} {n : Nat}
    (h : ∀ piece ∈ pieces, piece.IsWellFormed)
    (hstash : stash.drop n = pieces.flatMap Piece.carried)
    (hsize : stash.length ≤ Text.maxSize)
    (hfree : ∀ piece ∈ pieces, ¬placeholderStart <:+: piece.source) {before : Text}
    (hjoined : ¬placeholderStart <:+: before ++ pieces.flatMap Piece.plainText) :
    putBack stash (before ++ rewritten n pieces) =
      before ++ pieces.flatMap (Piece.markup stash) := by
  -- Text is added to what has been read; markup and tags start over behind it.
  induction pieces generalizing n before with
  | nil =>
    rw [List.flatMap_nil] at hjoined
    rw [rewritten, List.flatMap_nil]
    exact putBack_of_not_isInfix stash hjoined
  | cons piece pieces ih =>
    have hpiece := h piece List.mem_cons_self
    have hwf : ∀ p ∈ pieces, p.IsWellFormed := fun p hp => h p (List.mem_cons_of_mem _ hp)
    have hfrees : ∀ p ∈ pieces, ¬placeholderStart <:+: p.source :=
      fun p hp => hfree p (List.mem_cons_of_mem _ hp)
    have hbefore : putBack stash before = before :=
      putBack_of_not_isInfix stash (Text.not_isInfix_of_append hjoined).1
    have hafter : ¬placeholderStart <:+: [] ++ pieces.flatMap Piece.plainText := by
      rw [List.flatMap_cons] at hjoined
      exact (Text.not_isInfix_of_append (Text.not_isInfix_of_append hjoined).2).2
    rw [rewritten, List.flatMap_cons]
    cases piece with
    | text content =>
      have hmore : ¬placeholderStart <:+: before ++ content ++ pieces.flatMap Piece.plainText := by
        rwa [List.append_assoc]
      rw [← List.append_assoc, ← List.append_assoc]
      exact ih hwf hstash hfrees hmore
    | directive inner =>
      have hmarkup := rewrite_delimited_isMarkup hpiece
      have hnumber : n + (Piece.directive inner).carried.length = n := rfl
      simp only [Piece.rewritten, Piece.markup, toMarkup_delimited hpiece, hnumber]
      by_cases hnil : rewrite (delimited inner) = []
      · -- The text before goes on behind a directive without code.
        rw [hnil, putBack]
        exact ih hwf hstash hfrees (by rwa [List.flatMap_cons] at hjoined)
      · have hih := ih hwf hstash hfrees hafter
        rw [List.nil_append, List.nil_append] at hih
        rw [putBack_append_markup hmarkup hnil hbefore, hih]
    | tag first parts =>
      rw [List.flatMap_cons] at hstash
      have hdrop : stash.drop (n + (Piece.tag first parts).carried.length) =
          pieces.flatMap Piece.carried := by
        rw [← List.drop_drop, hstash, List.drop_left]
      have hih := ih hwf hdrop hfrees hafter
      rw [List.nil_append, List.nil_append] at hih
      rw [putBack_append_of_head? isSeparator_lt stash before rfl, hbefore, Piece.rewritten,
        putBack_append_tag hpiece.2 hstash hsize (hfree _ List.mem_cons_self), hih]
      rfl

theorem length_carried_le (pieces : List Piece) :
    (pieces.flatMap Piece.carried).length ≤ (pieces.flatMap Piece.source).length := by
  have hparts : ∀ parts : List TagPart,
      (parts.filterMap TagPart.directive?).length ≤ (parts.flatMap TagPart.source).length := by
    intro parts
    induction parts with
    | nil => rfl
    | cons part parts ih =>
      cases part with
      | char c =>
        simp only [List.filterMap_cons, TagPart.directive?, List.flatMap_cons, List.length_append]
        omega
      | directive code =>
        simp only [List.filterMap_cons, TagPart.directive?, List.flatMap_cons, List.length_append,
          TagPart.source, delimited, List.length_cons]
        omega
  induction pieces with
  | nil => rfl
  | cons piece pieces ih =>
    rw [List.flatMap_cons, List.flatMap_cons, List.length_append, List.length_append]
    have hpiece : piece.carried.length ≤ piece.source.length := by
      cases piece with
      | text content => exact Nat.zero_le _
      | directive inner => exact Nat.zero_le _
      | tag first parts => exact (hparts parts).trans (Nat.le_add_right _ 2)
    omega

/-- Text and tags come out as they are, and directives as they would alone, but for the directives
that are put back. -/
theorem toMarkup_source {pieces : List Piece} (h : ∀ piece ∈ pieces, piece.IsWellFormed)
    (hfree : ∀ piece ∈ pieces, ¬placeholderStart <:+: piece.source)
    (hjoined : ¬placeholderStart <:+: pieces.flatMap Piece.plainText)
    (hsize : (pieces.flatMap Piece.source).length ≤ Text.maxSize) :
    toMarkup (pieces.flatMap Piece.source) =
      pieces.flatMap (Piece.markup (pieces.flatMap Piece.carried)) := by
  rw [toMarkup_source_eq h]
  have hstash : (pieces.flatMap Piece.carried).drop 0 = pieces.flatMap Piece.carried :=
    List.drop_zero
  have hlength := (length_carried_le pieces).trans hsize
  have hbefore : ¬placeholderStart <:+: [] ++ pieces.flatMap Piece.plainText := hjoined
  exact putBack_rewritten h hstash hlength hfree hbefore

/-! ## Piece by piece -/

theorem percent_mem_of_mem_carried {pieces : List Piece} {directive : Text}
    (h : directive ∈ pieces.flatMap Piece.carried) : '%' ∈ directive := by
  obtain ⟨piece, -, hpiece⟩ := List.mem_flatMap.1 h
  cases piece with
  | text content => simp [Piece.carried] at hpiece
  | directive inner => simp [Piece.carried] at hpiece
  | tag first parts =>
    obtain ⟨part, -, hpart⟩ := List.mem_filterMap.1 hpiece
    cases part with
    | char c => simp [TagPart.directive?] at hpart
    | directive code =>
      obtain rfl := Option.some.inj hpart
      exact List.mem_cons_of_mem _ List.mem_cons_self

/-- Where no part of one text has fewer of a character than the part of another, and the texts are
equal, no part has more. -/
theorem count_le_of_flatMap_eq {α : Type} {f g : α → Text} {c : Char} {l : List α}
    (hle : ∀ x ∈ l, (g x).count c ≤ (f x).count c) (heq : l.flatMap f = l.flatMap g) :
    ∀ x ∈ l, (f x).count c ≤ (g x).count c := by
  have hcount : (l.flatMap f).count c ≤ (l.flatMap g).count c := by rw [heq]
  clear heq
  have hall : ∀ l : List α, (∀ x ∈ l, (g x).count c ≤ (f x).count c) →
      (l.flatMap g).count c ≤ (l.flatMap f).count c := by
    intro l hl
    induction l with
    | nil => exact le_rfl
    | cons x l ih =>
      rw [List.flatMap_cons, List.flatMap_cons, List.count_append, List.count_append]
      have hx := hl x List.mem_cons_self
      have hrest := ih fun y hy => hl y (List.mem_cons_of_mem _ hy)
      omega
  induction l with
  | nil => simp
  | cons x l ih =>
    rw [List.flatMap_cons, List.flatMap_cons, List.count_append, List.count_append] at hcount
    have hx := hle x List.mem_cons_self
    have hl : ∀ y ∈ l, (g y).count c ≤ (f y).count c :=
      fun y hy => hle y (List.mem_cons_of_mem _ hy)
    have hrest := hall l hl
    intro y hy
    rcases List.mem_cons.1 hy with rfl | hy
    · omega
    · exact ih hl (by omega) y hy

/-- Putting directives back changes nothing exactly if no directive outside of tags is made to
spell the number of one that was set aside. -/
theorem flatMap_markup_eq_iff {pieces : List Piece} (h : ∀ piece ∈ pieces, piece.IsWellFormed) :
    pieces.flatMap (Piece.markup (pieces.flatMap Piece.carried)) =
        pieces.flatMap Piece.toMarkup ↔
      ∀ inner, Piece.directive inner ∈ pieces →
        ∀ n ∈ spelled (toMarkup (delimited inner)), (pieces.flatMap Piece.carried).length ≤ n := by
  have hpercent : ∀ inner, Piece.directive inner ∈ pieces →
      '%' ∉ toMarkup (delimited inner) := by
    intro inner hmem
    have hplain : IsPlain inner := h _ hmem
    rw [toMarkup_delimited hplain]
    exact (rewrite_delimited_isMarkup hplain).1
  constructor
  · intro heq inner hmem n hn
    -- Markup has no percent sign and a directive has one, so what is put back would be counted.
    have hle : ∀ piece ∈ pieces, (Piece.toMarkup piece).count '%' ≤
        (Piece.markup (pieces.flatMap Piece.carried) piece).count '%' := by
      intro piece hpiece
      cases piece with
      | text content => exact le_rfl
      | tag first parts => exact le_rfl
      | directive inner =>
        rw [Piece.toMarkup, List.count_eq_zero.2 (hpercent inner hpiece)]
        exact Nat.zero_le _
    have hcount := count_le_of_flatMap_eq hle heq _ hmem
    rw [Piece.toMarkup, List.count_eq_zero.2 (hpercent inner hmem), Nat.le_zero,
      List.count_eq_zero] at hcount
    by_contra hlt
    exact hcount (mem_putBack_of_spelled (fun _ => percent_mem_of_mem_carried) hn (by omega))
  · intro hspelled
    refine List.flatMap_congr ?_
    intro piece hpiece
    cases piece with
    | text content => rfl
    | tag first parts => rfl
    | directive inner => exact putBack_eq_self_of_spelled (hspelled inner hpiece)

/-- The passes together turn a row of pieces into the row of what each piece becomes on its own,
exactly if no directive outside of tags is made to spell the number of a directive in a tag. -/
theorem toMarkup_source_piecewise (pieces : List Piece)
    (h : ∀ piece ∈ pieces, piece.IsWellFormed)
    (hfree : ∀ piece ∈ pieces, ¬placeholderStart <:+: piece.source)
    (hjoined : ¬placeholderStart <:+: pieces.flatMap Piece.plainText)
    (hsize : (pieces.flatMap Piece.source).length ≤ Text.maxSize) :
    toMarkup (pieces.flatMap Piece.source) =
        pieces.flatMap (Piece.markup (pieces.flatMap Piece.carried)) ∧
      (toMarkup (pieces.flatMap Piece.source) = pieces.flatMap Piece.toMarkup ↔
        ∀ inner, Piece.directive inner ∈ pieces → ∀ n ∈ spelled (toMarkup (delimited inner)),
          (pieces.flatMap Piece.carried).length ≤ n) := by
  have heq := toMarkup_source h hfree hjoined hsize
  refine ⟨heq, ?_⟩
  rw [heq]
  exact flatMap_markup_eq_iff h

/-- The start tag of a link with a directive in its address. -/
def linkTag : Piece :=
  .tag 'a' ([' ', 'h', 'r', 'e', 'f', '=', '"'].map TagPart.char ++
    [.directive "= u ".toList, .char '"', .char '>'])

/-- In a link around a name, each piece becomes what it becomes on its own. -/
theorem toMarkup_source_piecewise_link :
    toMarkup ([linkTag, .text "by ".toList, .directive "= name ".toList].flatMap Piece.source) =
      [linkTag, .text "by ".toList, .directive "= name ".toList].flatMap Piece.toMarkup := by
  refine (toMarkup_source_piecewise _ (by decide) (by decide) (by decide) (by decide)).2.2 ?_
  intro inner hinner n hn
  have hmem : inner = "= name ".toList := by
    simpa [linkTag] using hinner
  have hone : IsOneLine ⟨"<%=".toList, some '=', " name ".toList, "%>".toList⟩ :=
    ⟨by decide, by decide, by decide, by decide, by decide, by decide, by decide⟩
  have hmarkup : toMarkup (delimited "= name ".toList) = "<!--SLIM_OUTPUT:name-->".toList := by
    rw [toMarkup_delimited (by decide)]
    exact (rewrite_leaf hone (by decide)).trans (by decide)
  rw [hmem, hmarkup, spelled_of_not_isInfix (by decide)] at hn
  simp at hn

/-- Code in which `-->` stands before the rest of a placeholder. -/
def arrowCode : Text :=
  " x(\"-->SLIM_ATTR_DIRECTIVE_0__\") ".toList

/-- Behind a tag this code is changed: the stand-in for `-->` completes the placeholder, and the
directive of the tag takes its place. -/
theorem toMarkup_source_ne :
    (∀ piece ∈ [linkTag, .directive arrowCode],
        piece.IsWellFormed ∧ ¬placeholderStart <:+: piece.source) ∧
      ¬placeholderStart <:+: [linkTag, .directive arrowCode].flatMap Piece.plainText ∧
      toMarkup ([linkTag, .directive arrowCode].flatMap Piece.source) ≠
        [linkTag, .directive arrowCode].flatMap Piece.toMarkup := by
  have hwf : ∀ piece ∈ [linkTag, .directive arrowCode], piece.IsWellFormed := by decide
  have hfree : ∀ piece ∈ [linkTag, .directive arrowCode], ¬placeholderStart <:+: piece.source := by
    decide
  refine ⟨fun piece hpiece => ⟨hwf piece hpiece, hfree piece hpiece⟩, by decide, ?_⟩
  rw [toMarkup_source hwf hfree (by decide) (by decide), Ne, flatMap_markup_eq_iff hwf]
  intro hspelled
  have hone : IsOneLine ⟨"<%".toList, none, arrowCode, "%>".toList⟩ :=
    ⟨by decide, by decide, by decide, by decide, by decide, by decide, by decide⟩
  have hmarkup : toMarkup (delimited arrowCode) =
      "<!--SLIM_CODE:x(\"__SLIM_ARROW".toList ++ (placeholder 0 ++ "\")-->".toList) := by
    rw [toMarkup_delimited (by decide)]
    exact (rewrite_leaf hone (by decide)).trans (by decide)
  have hzero := hspelled arrowCode (List.mem_cons_of_mem _ List.mem_cons_self) 0
  rw [hmarkup, spelled_append_placeholder (by decide) (by decide)] at hzero
  exact absurd (hzero List.mem_cons_self) (by decide)

end SlimTemplate.Directive
