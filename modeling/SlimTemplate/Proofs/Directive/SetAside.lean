import SlimTemplate.Proofs.Directive.Rewrite

/-!
# Texts in pieces

A text with directives is a row of pieces: plain text, directives on their own, and tags, which
may carry directives. The first pass leaves the pieces apart: it takes the directives that tags
carry out of them, in order, and numbers them through.

## Main definitions

* `Directive.TagPart`, `Directive.ClosesTag`: what stands in a tag up to its end.
* `Directive.Piece`: a piece of a text.
* `Directive.carried`: the directives that the tags among pieces carry.

## Main statements

* `Directive.setAsideFrom_induction`: the ways in which the first pass goes on.
* `Directive.setAsideFrom_source`: the first pass takes out exactly the directives in tags.
-/

namespace SlimTemplate.Directive

/-- A part of what stands in a tag. -/
inductive TagPart where
  | char (c : Char)
  /-- A directive with what stands between its delimiters. -/
  | directive (code : Text)
  deriving DecidableEq, Repr

/-- A part as written. -/
def TagPart.source : TagPart → Text
  | char c => [c]
  | directive code => delimited code

/-- The directive that a part is. -/
def TagPart.directive? : TagPart → Option Text
  | char _ => none
  | directive code => some (delimited code)

/-- Whether parts run up to the end of a tag and no further, given the quote of the value that
they begin in and whether an equals sign stands before them. A quote opens a value directly after
an equals sign, a `<` before a `%` opens a directive, a directive ends at its first `%>`, and the
first `>` outside of directives and values ends the tag. -/
def ClosesTag : (quote : Option Char) → (afterEquals : Bool) → List TagPart → Prop
  | _, _, [] => False
  | quote, _, .directive code :: parts => ¬['%', '>'] <:+: code ∧ ClosesTag quote false parts
  | some q, _, .char c :: parts =>
    (c = '<' → parts.head? ≠ some (.char '%')) ∧
      ClosesTag (if c = q then none else some q) (c = '=') parts
  | none, afterEquals, .char c :: parts =>
    (c = '<' → parts.head? ≠ some (.char '%')) ∧
      if (c = '"' || c = '\'') && afterEquals then ClosesTag (some c) false parts
      else if c = '>' then parts = []
      else ClosesTag none (c = '=') parts

instance decidableClosesTag : (quote : Option Char) → (afterEquals : Bool) →
    (parts : List TagPart) → Decidable (ClosesTag quote afterEquals parts)
  | _, _, [] => isFalse not_false
  | quote, _, .directive code :: parts =>
    have := decidableClosesTag quote false parts
    inferInstanceAs (Decidable (¬['%', '>'] <:+: code ∧ ClosesTag quote false parts))
  | some q, _, .char c :: parts =>
    have := decidableClosesTag (if c = q then none else some q) (c = '=') parts
    inferInstanceAs (Decidable ((c = '<' → parts.head? ≠ some (.char '%')) ∧
      ClosesTag (if c = q then none else some q) (c = '=') parts))
  | none, afterEquals, .char c :: parts =>
    have := decidableClosesTag (some c) false parts
    have := decidableClosesTag none (c = '=') parts
    inferInstanceAs (Decidable ((c = '<' → parts.head? ≠ some (.char '%')) ∧
      if (c = '"' || c = '\'') && afterEquals then ClosesTag (some c) false parts
      else if c = '>' then parts = []
      else ClosesTag none (c = '=') parts))

/-- A piece of a text. -/
inductive Piece where
  | text (content : Text)
  /-- A directive with what stands between its delimiters: its sign, its code and the hyphen that
  may stand before the closing delimiter. -/
  | directive (inner : Text)
  /-- A tag: the character after its `<`, and the parts after that. -/
  | tag (first : Char) (parts : List TagPart)
  deriving DecidableEq, Repr

namespace Piece

/-- A piece as written. -/
def source : Piece → Text
  | text content => content
  | directive inner => delimited inner
  | tag first parts => '<' :: first :: parts.flatMap TagPart.source

/-- Whether a piece is what it is called. -/
def IsWellFormed : Piece → Prop
  | text content => '<' ∉ content
  | directive inner => IsPlain inner
  | tag first parts => (first.isAlpha || first = '/') = true ∧ ClosesTag none false parts

instance (piece : Piece) : Decidable piece.IsWellFormed :=
  match piece with
  | text content => inferInstanceAs (Decidable ('<' ∉ content))
  | directive inner => inferInstanceAs (Decidable (IsPlain inner))
  | tag first parts =>
    inferInstanceAs (Decidable ((first.isAlpha || first = '/') = true ∧ ClosesTag none false parts))

/-- The directives that a piece carries. -/
def carried : Piece → List Text
  | text _ => []
  | directive _ => []
  | tag _ parts => parts.filterMap TagPart.directive?

/-- The text of a piece of text. -/
def plainText : Piece → Text
  | text content => content
  | directive _ => []
  | tag _ _ => []

end Piece

/-- The parts of a tag after the first pass, with the directives numbered from `n` on. -/
def numberedParts (n : Nat) : List TagPart → Text
  | [] => []
  | .char c :: parts => c :: numberedParts n parts
  | .directive _ :: parts => placeholder n ++ numberedParts (n + 1) parts

/-- A piece after the first pass, with the directives that it carries numbered from `n` on. -/
def Piece.numbered (n : Nat) : Piece → Text
  | .text content => content
  | .directive inner => delimited inner
  | .tag first parts => '<' :: first :: numberedParts n parts

/-- Pieces after the first pass, with the directives that they carry numbered from `n` on. -/
def numbered (n : Nat) : List Piece → Text
  | [] => []
  | piece :: pieces => piece.numbered n ++ numbered (n + piece.carried.length) pieces

/-! ## One step of the first pass -/

/-- The place where the character before is no equals sign. -/
def Place.pastEquals : Place → Place
  | outside => outside
  | inTag quote _ => inTag quote false

theorem exists_of_codeInTag? {place : Place} {text code after : Text}
    (h : codeInTag? place text = some (code, after)) :
    (∃ quote afterEquals, place = .inTag quote afterEquals) ∧
      text = delimited code ++ after ∧
      Text.cutAt? "%>".toList (code ++ '%' :: '>' :: after) = some (code, after) := by
  unfold codeInTag? at h
  split at h
  · next quote afterEquals rest =>
    obtain rfl := Text.eq_append_of_cutAt? h
    exact ⟨⟨quote, afterEquals, rfl⟩, (delimited_append code after).symm, h⟩
  · cases h

theorem setAsideFrom_of_codeInTag? (n : Nat) {place : Place} {text code after : Text}
    (h : codeInTag? place text = some (code, after)) :
    setAsideFrom n place text =
      (placeholder n ++ (setAsideFrom (n + 1) place.pastEquals after).1,
        delimited code :: (setAsideFrom (n + 1) place.pastEquals after).2) := by
  obtain ⟨⟨quote, afterEquals, rfl⟩, rfl, -⟩ := exists_of_codeInTag? h
  rw [delimited_append] at h ⊢
  rw [setAsideFrom]
  split
  · next heq =>
    rw [h] at heq
    obtain ⟨rfl, rfl⟩ := Prod.mk.inj (Option.some.inj heq)
    rfl
  · next heq =>
    rw [h] at heq
    simp at heq

theorem exists_of_isLeftOpen {place : Place} {text : Text} (h : isLeftOpen place text = true) :
    ∃ rest, text = '<' :: '%' :: rest ∧ Text.cutAt? "%>".toList rest = none := by
  unfold isLeftOpen at h
  split at h
  · next rest => exact ⟨rest, rfl, Option.isNone_iff_eq_none.1 h⟩
  · cases h

theorem codeInTag?_of_isLeftOpen {place : Place} {text : Text} (h : isLeftOpen place text = true) :
    codeInTag? place text = none := by
  unfold isLeftOpen at h
  split at h
  · exact Option.isNone_iff_eq_none.1 h
  · cases h

/-- A directive that is left open ends the search. -/
theorem setAsideFrom_of_isLeftOpen (n : Nat) {place : Place} {text : Text}
    (h : isLeftOpen place text = true) : setAsideFrom n place text = (text, []) := by
  cases text with
  | nil =>
    obtain ⟨rest, hrest, -⟩ := exists_of_isLeftOpen h
    cases hrest
  | cons c text =>
    rw [setAsideFrom]
    split
    · next heq =>
      rw [codeInTag?_of_isLeftOpen h] at heq
      cases heq
    · rw [if_pos h]

theorem codeInTag?_eq_none (place : Place) {c : Char} {text : Text}
    (h : c = '<' → text.head? ≠ some '%') : codeInTag? place (c :: text) = none := by
  unfold codeInTag?
  split
  · next heq =>
    obtain ⟨rfl, rfl⟩ := List.cons.inj heq
    exact absurd rfl (h rfl)
  · rfl

theorem isLeftOpen_eq_false (place : Place) {c : Char} {text : Text}
    (h : c = '<' → text.head? ≠ some '%') : isLeftOpen place (c :: text) = false := by
  unfold isLeftOpen
  split
  · next heq =>
    obtain ⟨rfl, rfl⟩ := List.cons.inj heq
    exact absurd rfl (h rfl)
  · rfl

theorem setAsideFrom_cons (n : Nat) {place : Place} {c : Char} {text : Text}
    (hcode : codeInTag? place (c :: text) = none) (hopen : isLeftOpen place (c :: text) = false) :
    setAsideFrom n place (c :: text) =
      (c :: (setAsideFrom n (place.next c text) text).1,
        (setAsideFrom n (place.next c text) text).2) := by
  rw [setAsideFrom]
  split
  · next heq =>
    rw [hcode] at heq
    simp at heq
  · rw [hopen, if_neg Bool.false_ne_true]

/-- What holds at the end of a text and where a directive is left open, and is kept by a directive
and by any other character, holds of all that is left to read. -/
@[elab_as_elim]
theorem setAsideFrom_induction {motive : Nat → Place → Text → Prop}
    (nil : ∀ n place, motive n place [])
    (directive : ∀ n place text code after, codeInTag? place text = some (code, after) →
      motive (n + 1) place.pastEquals after → motive n place text)
    (leftOpen : ∀ n place text, isLeftOpen place text = true → motive n place text)
    (char : ∀ n place c text, codeInTag? place (c :: text) = none →
      isLeftOpen place (c :: text) = false → motive n (place.next c text) text →
        motive n place (c :: text))
    (n : Nat) (place : Place) (text : Text) : motive n place text := by
  cases text with
  | nil => exact nil n place
  | cons c text =>
    cases hcode : codeInTag? place (c :: text) with
    | some read =>
      have hlength := length_codeInTag? hcode
      exact directive n place _ _ _ hcode
        (setAsideFrom_induction nil directive leftOpen char (n + 1) place.pastEquals read.2)
    | none =>
      cases hopen : isLeftOpen place (c :: text) with
      | true => exact leftOpen n place _ hopen
      | false =>
        exact char n place c text hcode hopen
          (setAsideFrom_induction nil directive leftOpen char n (place.next c text) text)
termination_by text.length
decreasing_by
  · exact Nat.lt_succ_self _
  · exact hlength

/-- Outside of tags, what opens no tag is left as it is. -/
theorem setAsideFrom_outside (n : Nat) {c : Char} {text : Text}
    (h : c = '<' → opensTag text = false) :
    setAsideFrom n .outside (c :: text) =
      (c :: (setAsideFrom n .outside text).1, (setAsideFrom n .outside text).2) := by
  have hplace : Place.outside.next c text = .outside := by
    by_cases hc : c = '<'
    · simp [Place.next, h hc]
    · simp [Place.next, hc]
  rw [setAsideFrom_cons n rfl rfl, hplace]

theorem setAsideFrom_outside_append (n : Nat) {text : Text} (h : '<' ∉ text) (rest : Text) :
    setAsideFrom n .outside (text ++ rest) =
      (text ++ (setAsideFrom n .outside rest).1, (setAsideFrom n .outside rest).2) := by
  induction text with
  | nil => rfl
  | cons c text ih =>
    have hc : c = '<' → opensTag (text ++ rest) = false := by
      rintro rfl
      exact absurd List.mem_cons_self h
    rw [List.cons_append, setAsideFrom_outside n hc,
      ih fun hmem => h (List.mem_cons_of_mem _ hmem), List.cons_append]

theorem cutAt?_append {code : Text} (h : ¬['%', '>'] <:+: code) (rest : Text) :
    Text.cutAt? "%>".toList (code ++ '%' :: '>' :: rest) = some (code, rest) := by
  have hclose : "%>".toList = ['%', '>'] := rfl
  rw [hclose]
  induction code with
  | nil => rfl
  | cons c code ih =>
    have hnone : Text.dropPrefix? ['%', '>'] (c :: (code ++ '%' :: '>' :: rest)) = none := by
      rw [Option.eq_none_iff_forall_not_mem]
      intro after hafter
      have heq := Text.dropPrefix?_eq_some_iff.1 hafter
      cases code with
      | nil => simp at heq
      | cons d code =>
        simp only [List.cons_append, List.cons.injEq, List.nil_append] at heq
        obtain ⟨rfl, rfl, -⟩ := heq
        exact h ⟨[], code, rfl⟩
    have hcode : ¬['%', '>'] <:+: code := mt List.infix_cons h
    rw [List.cons_append, Text.cutAt?, hnone]
    simp only [ih hcode, Option.map_some]

/-- A directive in a tag is set aside. -/
theorem setAsideFrom_directive (n : Nat) (quote : Option Char) (afterEquals : Bool) {code : Text}
    (h : ¬['%', '>'] <:+: code) (rest : Text) :
    setAsideFrom n (.inTag quote afterEquals) (delimited code ++ rest) =
      (placeholder n ++ (setAsideFrom (n + 1) (.inTag quote false) rest).1,
        delimited code :: (setAsideFrom (n + 1) (.inTag quote false) rest).2) := by
  rw [delimited_append]
  exact setAsideFrom_of_codeInTag? n (cutAt?_append h rest)

/-! ## The first pass over pieces -/

theorem head?_flatMap_source_ne {parts : List TagPart}
    (h : parts.head? ≠ some (.char '%')) (hne : parts ≠ []) (rest : Text) :
    (parts.flatMap TagPart.source ++ rest).head? ≠ some '%' := by
  cases parts with
  | nil => exact absurd rfl hne
  | cons part parts =>
    cases part with
    | directive code => simp [TagPart.source, delimited]
    | char c =>
      have hc : c ≠ '%' := by
        rintro rfl
        exact h rfl
      simpa [TagPart.source] using hc

theorem ClosesTag.ne_nil {quote : Option Char} {afterEquals : Bool} {parts : List TagPart}
    (h : ClosesTag quote afterEquals parts) : parts ≠ [] := by
  rintro rfl
  simp [ClosesTag] at h

/-- A character in a tag ends the tag, or the tag goes on in the place that the character leads
to. -/
theorem ClosesTag.of_char {quote : Option Char} {afterEquals : Bool} {c : Char}
    {parts : List TagPart} (h : ClosesTag quote afterEquals (.char c :: parts)) :
    (c = '>' ∧ parts = [] ∧ ∀ text, (Place.inTag quote afterEquals).next c text = .outside) ∨
      ∃ quote' afterEquals', ClosesTag quote' afterEquals' parts ∧
        (c = '<' → parts.head? ≠ some (.char '%')) ∧
        ∀ text, (Place.inTag quote afterEquals).next c text = .inTag quote' afterEquals' := by
  cases quote with
  | some q => exact Or.inr ⟨_, _, h.2, h.1, fun _ => rfl⟩
  | none =>
    obtain ⟨hlt, hparts⟩ := h
    by_cases hvalue : ((c = '"' || c = '\'') && afterEquals) = true
    · rw [if_pos hvalue] at hparts
      exact Or.inr ⟨_, _, hparts, hlt, fun _ => by rw [Place.next, if_pos hvalue]⟩
    rw [if_neg hvalue] at hparts
    by_cases hend : c = '>'
    · rw [if_pos hend] at hparts
      exact Or.inl ⟨hend, hparts, fun _ => by rw [Place.next, if_neg hvalue, if_pos hend]⟩
    · rw [if_neg hend] at hparts
      exact Or.inr ⟨_, _, hparts, hlt, fun _ => by rw [Place.next, if_neg hvalue, if_neg hend]⟩

/-- In a tag, a character that opens no directive is left as it is. -/
theorem setAsideFrom_inTag (n : Nat) {place : Place} {c : Char} {parts : List TagPart}
    (hlt : c = '<' → parts.head? ≠ some (.char '%')) (hne : c = '<' → parts ≠ []) (rest : Text) :
    setAsideFrom n place ((TagPart.char c :: parts).flatMap TagPart.source ++ rest) =
      (c :: (setAsideFrom n (place.next c (parts.flatMap TagPart.source ++ rest))
          (parts.flatMap TagPart.source ++ rest)).1,
        (setAsideFrom n (place.next c (parts.flatMap TagPart.source ++ rest))
          (parts.flatMap TagPart.source ++ rest)).2) := by
  have hhead : c = '<' → (parts.flatMap TagPart.source ++ rest).head? ≠ some '%' :=
    fun hc => head?_flatMap_source_ne (hlt hc) (hne hc) rest
  exact setAsideFrom_cons n (codeInTag?_eq_none place hhead) (isLeftOpen_eq_false place hhead)

/-- The directives in a tag are set aside, and reading goes on outside of tags behind it. -/
theorem setAsideFrom_parts {quote : Option Char} {afterEquals : Bool} {parts : List TagPart}
    (h : ClosesTag quote afterEquals parts) (n : Nat) (rest : Text) :
    setAsideFrom n (.inTag quote afterEquals) (parts.flatMap TagPart.source ++ rest) =
      (numberedParts n parts ++
          (setAsideFrom (n + (parts.filterMap TagPart.directive?).length) .outside rest).1,
        parts.filterMap TagPart.directive? ++
          (setAsideFrom (n + (parts.filterMap TagPart.directive?).length) .outside rest).2) := by
  -- The place changes with every part, and the number with every directive.
  induction parts generalizing quote afterEquals n with
  | nil => simp [ClosesTag] at h
  | cons part parts ih =>
    cases part with
    | directive code =>
      obtain ⟨hcode, hparts⟩ := h
      have hsource : (TagPart.directive code :: parts).flatMap TagPart.source ++ rest =
          delimited code ++ (parts.flatMap TagPart.source ++ rest) := by
        simp only [List.flatMap_cons, TagPart.source, List.append_assoc]
      rw [hsource, setAsideFrom_directive n quote afterEquals hcode, ih hparts]
      simp only [numberedParts, List.filterMap_cons, TagPart.directive?, List.length_cons,
        List.append_assoc, List.cons_append, Nat.add_assoc, Nat.add_comm 1]
    | char c =>
      rcases h.of_char with ⟨rfl, rfl, hnext⟩ | ⟨quote', afterEquals', hparts, hlt, hnext⟩
      · rw [setAsideFrom_inTag n (by simp) (by simp), hnext]
        rfl
      · rw [setAsideFrom_inTag n hlt fun _ => hparts.ne_nil, hnext, ih hparts]
        rfl

/-- A directive outside of tags stays. -/
theorem setAsideFrom_delimited (n : Nat) {inner : Text} (h : IsPlain inner) (rest : Text) :
    setAsideFrom n .outside (delimited inner ++ rest) =
      (delimited inner ++ (setAsideFrom n .outside rest).1, (setAsideFrom n .outside rest).2) := by
  rw [delimited, List.cons_append, setAsideFrom_outside n fun _ => rfl,
    setAsideFrom_outside_append n (lt_not_mem_tail h)]
  rfl

theorem setAsideFrom_piece {piece : Piece} (h : piece.IsWellFormed) (n : Nat) (rest : Text) :
    setAsideFrom n .outside (piece.source ++ rest) =
      (piece.numbered n ++ (setAsideFrom (n + piece.carried.length) .outside rest).1,
        piece.carried ++ (setAsideFrom (n + piece.carried.length) .outside rest).2) := by
  cases piece with
  | text content => exact setAsideFrom_outside_append n h rest
  | directive inner => exact setAsideFrom_delimited n h rest
  | tag first parts =>
    obtain ⟨hfirst, hparts⟩ := h
    have hne : ∀ c : Char, (c.isAlpha || c = '/') = false → first ≠ c := by
      rintro c hc rfl
      rw [hfirst] at hc
      simp at hc
    have hopen : ∀ text, Place.outside.next '<' (first :: text) = .inTag none false := by
      intro text
      simp only [Place.next, opensTag, hfirst]
      rfl
    have hnext : ∀ text, (Place.inTag none false).next first text = .inTag none false := by
      intro text
      simp only [Place.next, Bool.and_false, Bool.false_eq_true, if_false,
        hne '>' (by decide), hne '=' (by decide), decide_false]
    have hlt : ∀ text : Text, first = '<' → text.head? ≠ some '%' :=
      fun _ heq => absurd heq (hne '<' (by decide))
    have hsource : (Piece.tag first parts).source ++ rest =
        '<' :: first :: (parts.flatMap TagPart.source ++ rest) := rfl
    rw [hsource, setAsideFrom_cons n rfl rfl, hopen,
      setAsideFrom_cons n (codeInTag?_eq_none _ (hlt _)) (isLeftOpen_eq_false _ (hlt _)), hnext,
      setAsideFrom_parts hparts]
    rfl

/-- The first pass leaves the pieces of a text apart and takes out the directives in tags. -/
theorem setAsideFrom_source {pieces : List Piece} (h : ∀ piece ∈ pieces, piece.IsWellFormed)
    (n : Nat) :
    setAsideFrom n .outside (pieces.flatMap Piece.source) =
      (numbered n pieces, pieces.flatMap Piece.carried) := by
  induction pieces generalizing n with
  | nil => rw [List.flatMap_nil, setAsideFrom, numbered, List.flatMap_nil]
  | cons piece pieces ih =>
    rw [List.flatMap_cons, setAsideFrom_piece (h piece List.mem_cons_self),
      ih fun p hp => h p (List.mem_cons_of_mem _ hp), numbered, List.flatMap_cons]

end SlimTemplate.Directive
