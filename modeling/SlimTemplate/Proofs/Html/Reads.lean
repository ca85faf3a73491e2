import SlimTemplate.Proofs.Html.Course
import SlimTemplate.Proofs.Html.StartTag

/-!
# Texts that are read in the same way wherever they stand

How a text is taken apart into tokens depends on what is open only where raw text or a section of
character data begins. A run of text up to the next `<`, a complete tag and a comment are read as
the same tokens whatever is open and whatever follows, so that a text made of such parts is read
part by part.

## Main definitions

* `Html.Reads`: a text that is read as these tokens whatever is open.

## Main statements

* `Html.scan_tag_append`, `Html.scan_comment`, `Html.scan_text`: the parts are read on their own.
* `Html.Course.run`: reading such a text puts its comments in one by one.
-/

namespace SlimTemplate.Html

open Builder
open Markup (Attribute)

/-- A text that is read as these tokens, whatever is open. -/
inductive Reads : Text → List Token → Prop
  | stop : Reads [] []
  | step {text rest : Text} {tokens more : List Token} (hne : text ≠ [])
      (h : ∀ inForeign, scan inForeign text = (tokens, rest)) (hrest : Reads rest more) :
      Reads text (tokens ++ more)

variable {scope : Scope} {b b' : Builder}

/-- Where no raw text is read, reading a text puts its comments in one by one. -/
theorem Course.run (hscope : scope.IsMarkup) (hstop : scope.Allows .stop) {datas : List Text}
    (h : Course scope b datas b') (hfits : b'.Fits scope) {text : Text} {tokens : List Token}
    (hreads : Reads text tokens) (htokens : ∀ token ∈ tokens, scope.Allows token) :
    Course scope b (datas ++ tokens.filterMap Token.comment?) (b'.run text) := by
  have hraw : ∀ {x : Builder}, x.Fits scope → ∀ text, x.takeRaw text = (x, text) := by
    intro x hx text
    rw [takeRaw, (hx.raw_eq.resolve_left hscope.not_holdsRaw).1]
  induction hreads generalizing b' datas with
  | stop =>
    rw [Builder.run, hraw hfits, dif_pos rfl]
    exact (h.takeAll hscope hfits (List.forall_mem_singleton.2 hstop)).1
  | @step text rest tokens more hne hscan _ ih =>
    obtain ⟨htokens, hmore⟩ := List.forall_mem_append.1 htokens
    obtain ⟨hcourse, hfits'⟩ := h.takeAll hscope hfits htokens
    have hrun : b'.run text = (b'.takeAll tokens).run rest := by
      rw [Builder.run, hraw hfits, dif_neg hne]
      simp only [hscan]
    rw [hrun, List.filterMap_append, ← List.append_assoc]
    exact ih hcourse hfits' hmore

/-! ## Runs of text -/

/-- A token that is no comment and no tag. -/
def Token.IsPlain : Token → Prop
  | .char _ | .fault => True
  | _ => False

theorem charsMeant_isPlain (text : Text) : ∀ token ∈ charsMeant text, token.IsPlain := by
  have hchars : ∀ text : Text, ∀ token ∈ chars text, token.IsPlain := by
    intro text token htoken
    obtain ⟨c, -, rfl⟩ := List.mem_map.1 htoken
    trivial
  intro token htoken
  obtain ⟨piece, -, hpiece⟩ := List.mem_flatMap.1 htoken
  cases piece with
  | char c => exact hchars [c] token hpiece
  | reference target =>
    rw [pieceTokens] at hpiece
    split at hpiece
    · exact hchars _ token hpiece
    · rcases List.mem_cons.1 hpiece with rfl | hpiece
      · trivial
      · exact hchars _ token hpiece

theorem filterMap_comment?_of_isPlain {tokens : List Token} (h : ∀ token ∈ tokens, token.IsPlain) :
    tokens.filterMap Token.comment? = [] := by
  refine List.filterMap_eq_nil_iff.2 fun token htoken => ?_
  have hplain := h token htoken
  cases token with
  | comment data => exact hplain.elim
  | _ => rfl

/-- A run of text is read up to the next `<`. -/
theorem scan_text {text rest : Text} (hne : text ≠ []) (h : '<' ∉ text)
    (hrest : rest = [] ∨ rest.head? = some '<') (inForeign : Bool) :
    scan inForeign (text ++ rest) = (charsMeant text, rest) := by
  obtain ⟨c, more, rfl⟩ := List.exists_cons_of_ne_nil hne
  have hc : c ≠ '<' := fun heq => h (heq ▸ List.mem_cons_self)
  have htext : ∀ d ∈ c :: more, decide (d ≠ '<') = true :=
    fun d hd => decide_eq_true fun heq => h (heq ▸ hd)
  rw [List.cons_append, scan, if_neg hc, scanText, ← List.cons_append]
  rcases hrest with rfl | hrest
  · rw [List.append_nil, List.takeWhile_eq_self_iff.2 htext, List.dropWhile_eq_nil_iff.2 htext]
  · obtain ⟨after, rfl⟩ := List.head?_eq_some_iff.1 hrest
    rw [takeWhile_until htext (by decide), dropWhile_until htext (by decide)]

/-! ## Line endings -/

theorem unifyLineEnds_eq {text : Text} (h : '\r' ∉ text) : normalize.unifyLineEnds text = text := by
  fun_induction normalize.unifyLineEnds text with
  | case1 => rfl
  | case2 => simp at h
  | case3 => simp at h
  | case4 c rest _ _ ih => rw [ih fun hmem => h (List.mem_cons_of_mem _ hmem)]

theorem mem_of_mem_unifyLineEnds {text : Text} {c : Char}
    (h : c ∈ normalize.unifyLineEnds text) : c = '\n' ∨ c ∈ text := by
  fun_induction normalize.unifyLineEnds text with
  | case1 => exact .inr h
  | case2 rest ih =>
    rcases List.mem_cons.1 h with rfl | h
    · exact .inl rfl
    · exact (ih h).imp_right fun hmem => List.mem_cons_of_mem _ (List.mem_cons_of_mem _ hmem)
  | case3 rest _ ih =>
    rcases List.mem_cons.1 h with rfl | h
    · exact .inl rfl
    · exact (ih h).imp_right (List.mem_cons_of_mem _)
  | case4 d rest _ _ ih =>
    rcases List.mem_cons.1 h with rfl | h
    · exact .inr List.mem_cons_self
    · exact (ih h).imp_right (List.mem_cons_of_mem _)

theorem unifyLineEnds_ne_nil {text : Text} (h : text ≠ []) : normalize.unifyLineEnds text ≠ [] := by
  unfold normalize.unifyLineEnds
  split
  · exact absurd rfl h
  all_goals exact List.cons_ne_nil _ _

theorem unifyLineEnds_cons {c : Char} (hc : c ≠ '\r') (text : Text) :
    normalize.unifyLineEnds (c :: text) = c :: normalize.unifyLineEnds text := by
  rw [normalize.unifyLineEnds]
  · exact fun _ heq _ => hc heq
  · exact hc

theorem unifyLineEnds_return {text : Text} (h : text.head? ≠ some '\n') :
    normalize.unifyLineEnds ('\r' :: text) = '\n' :: normalize.unifyLineEnds text := by
  rw [normalize.unifyLineEnds]
  rintro rest rfl
  exact h rfl

/-- Line endings are found part by part where none is cut in two. -/
theorem unifyLineEnds_append {a b : Text} (h : a.getLast? ≠ some '\r' ∨ b.head? ≠ some '\n') :
    normalize.unifyLineEnds (a ++ b) =
      normalize.unifyLineEnds a ++ normalize.unifyLineEnds b := by
  have htail : ∀ {c : Char} {a : Text}, (c :: a).getLast? ≠ some '\r' ∨ b.head? ≠ some '\n' →
      a.getLast? ≠ some '\r' ∨ b.head? ≠ some '\n' := by
    intro c a h
    refine h.imp_left fun h hlast => h ?_
    rw [List.getLast?_cons, hlast]
    rfl
  fun_induction normalize.unifyLineEnds a with
  | case1 => rfl
  | case2 rest ih =>
    rw [List.cons_append, List.cons_append, normalize.unifyLineEnds, ih (htail (htail h))]
    rfl
  | case3 rest hrest ih =>
    rw [List.cons_append, unifyLineEnds_return, ih (htail h)]
    · rfl
    · cases rest with
      | nil => exact h.resolve_left fun hlast => hlast rfl
      | cons d rest =>
        intro heq
        obtain rfl := Option.some.inj heq
        exact hrest rest rfl
  | case4 c rest _ hc ih =>
    rw [List.cons_append, unifyLineEnds_cons hc, ih (htail h)]
    rfl

/-! ## Comments -/

namespace Comment

/-- The texts that close a comment. -/
def closers : List Text :=
  ["-->".toList, "--!>".toList]

/-- Whether a text closes no comment that it stands in. -/
def LeavesOpen (data : Text) : Prop :=
  ∀ close ∈ closers, ¬close <:+: data

theorem leavesOpen_of_not_isInfix {data : Text} (h : ¬['-', '-'] <:+: data) : LeavesOpen data := by
  have hhyphens : ∀ close ∈ closers, ['-', '-'] <:+: close := by decide
  exact fun close hclose hfound => h ((hhyphens close hclose).trans hfound)

variable {close data : Text}

/-- No closing begins in a text and ends in the closing behind it. -/
theorem isPrefix_of_isPrefix_append {other : Text} (hother : other ∈ closers)
    (hclose : close ∈ closers) (hne : data ≠ []) {rest : Text}
    (h : other <+: data ++ (close ++ rest)) : other <+: data := by
  have hapart : ∀ other ∈ closers, ∀ close ∈ closers, other.length ≤ close.length + 1 ∧
      ∀ k < other.length, 0 < k → ¬other.drop k <+: close := by
    decide
  obtain ⟨hlengths, hapart⟩ := hapart other hother close hclose
  by_cases hlength : other.length ≤ data.length
  · exact List.prefix_of_prefix_length_le h (List.prefix_append data _) hlength
  · -- What is left of the closing behind the data would begin the other one.
    have hpos : 0 < data.length := List.length_pos_iff.2 hne
    have hdrop : other.drop data.length <+: close ++ rest := by
      have htail := h.drop data.length
      rwa [List.drop_left] at htail
    refine absurd ?_ (hapart data.length (Nat.lt_of_not_le hlength) hpos)
    refine List.prefix_of_prefix_length_le hdrop (List.prefix_append close rest) ?_
    rw [List.length_drop]
    omega

theorem untilClose?_of_mem (hclose : close ∈ closers) (rest : Text) :
    untilClose? (close ++ rest) = some ([], rest) := by
  simp only [closers, List.mem_cons, List.not_mem_nil, or_false] at hclose
  rcases hclose with rfl | rfl
  · rfl
  · rfl

/-- Where no closing begins the comment goes on behind the first character. -/
theorem untilClose?_cons {c : Char} {text : Text}
    (h : ∀ close ∈ closers, ¬close <+: c :: text) :
    untilClose? (c :: text) = (untilClose? text).map fun (data, after) => (c :: data, after) := by
  obtain ⟨harrow, hbang⟩ := List.forall_mem_cons.1 h
  rw [List.forall_mem_singleton] at hbang
  rw [untilClose?]
  · rintro after rfl rfl
    exact harrow ⟨after, rfl⟩
  · rintro after rfl rfl
    exact hbang ⟨after, rfl⟩

/-- A comment ends at the first closing. -/
theorem untilClose?_append (hclose : close ∈ closers) (h : LeavesOpen data) (rest : Text) :
    untilClose? (data ++ close ++ rest) = some (data, rest) := by
  induction data with
  | nil => exact untilClose?_of_mem hclose rest
  | cons c data ih =>
    have hdata : LeavesOpen data := fun other hother hfound =>
      h other hother (hfound.trans (List.suffix_cons c data).isInfix)
    have hnone : ∀ other ∈ closers, ¬other <+: c :: (data ++ close ++ rest) := by
      intro other hother hbegins
      rw [← List.cons_append, ← List.cons_append, List.append_assoc] at hbegins
      have hwithin := isPrefix_of_isPrefix_append hother hclose (List.cons_ne_nil c data) hbegins
      exact h other hother hwithin.isInfix
    rw [List.cons_append, List.cons_append, untilClose?_cons hnone, ih hdata]
    rfl

end Comment

open Comment (closers LeavesOpen)

/-- A comment is read as the text up to its first closing. -/
theorem scan_comment {c : Char} {data close : Text} (hgt : c ≠ '>') (hhyphen : c ≠ '-')
    (hclose : close ∈ closers) (h : LeavesOpen (c :: data)) (hnul : '\x00' ∉ c :: data)
    (inForeign : Bool) (rest : Text) :
    scan inForeign ("<!--".toList ++ (c :: data ++ close) ++ rest) =
      ([.comment (c :: data)], rest) := by
  have hscan : Comment.scan (c :: data ++ close ++ rest) = (c :: data, rest) := by
    unfold Comment.scan
    split
    · next after heq => exact absurd (List.cons.inj heq).1 hgt
    · next after heq => exact absurd (List.cons.inj heq).1 hhyphen
    · rw [Comment.untilClose?_append hclose h]
      exact congrArg (·, rest) (replaceNul_eq hnul)
  show commentToken (Comment.scan (c :: data ++ close ++ rest)) = _
  rw [commentToken, hscan]

/-! ## Tags -/

section Append

variable {text rest value : Text} {more : Text}

/-- What stands behind the character at which a run ends does not matter to the run. -/
theorem run_append {p : Char → Bool} (h : text.dropWhile p ≠ []) (more : Text) :
    (text ++ more).takeWhile p = text.takeWhile p ∧
      (text ++ more).dropWhile p = text.dropWhile p ++ more := by
  obtain ⟨c, after, hdrop⟩ := List.exists_cons_of_ne_nil h
  have hc : p c = false := by
    have hnot := List.head_dropWhile_not p (l := text) h
    simpa only [hdrop, List.head_cons] using hnot
  have htext : text = text.takeWhile p ++ c :: after := by
    rw [← hdrop, List.takeWhile_append_dropWhile]
  have hrun : ∀ d ∈ text.takeWhile p, p d = true := fun d hd => List.mem_takeWhile_imp hd
  rw [hdrop]
  constructor
  · conv_lhs => rw [htext, List.append_assoc, List.cons_append]
    exact takeWhile_until hrun hc (after ++ more)
  · conv_lhs => rw [htext, List.append_assoc, List.cons_append]
    exact dropWhile_until hrun hc (after ++ more)

theorem readValue?_of_quote {quote : Char} {inner : Text} (hquote : quote = '"' ∨ quote = '\'')
    (htext : text.dropWhile isSpace = quote :: inner) :
    readValue? text = if inner.contains quote then
      some (valueText (inner.takeWhile (· ≠ quote)), (inner.dropWhile (· ≠ quote)).drop 1)
    else none := by
  rcases hquote with rfl | rfl
  · simp only [readValue?, htext]
  · simp only [readValue?, htext]

theorem readValue?_of_bare (htext : ∀ inner, text.dropWhile isSpace ≠ '"' :: inner ∧
    text.dropWhile isSpace ≠ '\'' :: inner) :
    readValue? text = some (valueText ((text.dropWhile isSpace).takeWhile fun c => !endsBareValue c),
      (text.dropWhile isSpace).dropWhile fun c => !endsBareValue c) := by
  unfold readValue?
  split
  · next inner heq => exact absurd heq (htext inner).1
  · next inner heq => exact absurd heq (htext inner).2
  · rfl

/-- A value that ends before the text does is read as the same whatever follows. -/
theorem readValue?_append (h : readValue? text = some (value, rest)) (hne : rest ≠ [])
    (more : Text) : readValue? (text ++ more) = some (value, rest ++ more) := by
  by_cases hspace : text.dropWhile isSpace = []
  · rw [readValue?_of_bare (by simp [hspace]), hspace] at h
    obtain ⟨-, rfl⟩ := Prod.mk.inj (Option.some.inj h)
    exact absurd rfl hne
  have hdrop := (run_append hspace more).2
  by_cases hquote : ∃ quote inner, (quote = '"' ∨ quote = '\'') ∧
      text.dropWhile isSpace = quote :: inner
  · obtain ⟨quote, inner, hquote, htext⟩ := hquote
    rw [readValue?_of_quote hquote htext, Option.ite_none_right_eq_some] at h
    obtain ⟨hcontains, hread⟩ := h
    obtain ⟨rfl, rfl⟩ := Prod.mk.inj (Option.some.inj hread)
    have hinner : inner.dropWhile (· ≠ quote) ≠ [] := by
      intro hnil
      have hmem := List.contains_iff_mem.1 hcontains
      simpa using List.dropWhile_eq_nil_iff.1 hnil quote hmem
    obtain ⟨htake, hskip⟩ := run_append hinner more
    rw [htext, List.cons_append] at hdrop
    rw [readValue?_of_quote hquote hdrop, htake, hskip, if_pos]
    · obtain ⟨c, after, hafter⟩ := List.exists_cons_of_ne_nil hinner
      rw [hafter]
      rfl
    · rw [List.contains_iff_mem] at hcontains ⊢
      exact List.mem_append_left _ hcontains
  · have hbare : ∀ inner, text.dropWhile isSpace ≠ '"' :: inner ∧
        text.dropWhile isSpace ≠ '\'' :: inner := fun inner =>
      ⟨fun heq => hquote ⟨'"', inner, .inl rfl, heq⟩, fun heq => hquote ⟨'\'', inner, .inr rfl, heq⟩⟩
    rw [readValue?_of_bare hbare] at h
    obtain ⟨rfl, rfl⟩ := Prod.mk.inj (Option.some.inj h)
    obtain ⟨htake, hskip⟩ := run_append hne more
    obtain ⟨c, inner, hcons⟩ := List.exists_cons_of_ne_nil hspace
    have hbare' : ∀ inner, (text ++ more).dropWhile isSpace ≠ '"' :: inner ∧
        (text ++ more).dropWhile isSpace ≠ '\'' :: inner := by
      rw [hdrop, hcons]
      rw [hcons] at hbare
      exact fun other => ⟨fun heq => (hbare inner).1 (congrArg (· :: inner) (List.cons.inj heq).1),
        fun heq => (hbare inner).2 (congrArg (· :: inner) (List.cons.inj heq).1)⟩
    rw [readValue?_of_bare hbare', hdrop, htake, hskip]

theorem readAttribute?_of_equals {c : Char} {after : Text}
    (htext : (text.dropWhile fun d => !endsAttributeName d).dropWhile isSpace = '=' :: after) :
    readAttribute? c text = (readValue? after).map fun (value, rest) =>
      ((tagText (c :: text.takeWhile fun d => !endsAttributeName d), value), rest) := by
  simp only [readAttribute?, htext]

theorem readAttribute?_of_bare {c : Char}
    (htext : ∀ after, (text.dropWhile fun d => !endsAttributeName d).dropWhile isSpace ≠ '=' :: after) :
    readAttribute? c text =
      some ((tagText (c :: text.takeWhile fun d => !endsAttributeName d), []),
        (text.dropWhile fun d => !endsAttributeName d).dropWhile isSpace) := by
  unfold readAttribute?
  split
  · next after heq => exact absurd heq (htext after)
  · rfl

/-- An attribute that ends before the text does is read as the same whatever follows. -/
theorem readAttribute?_append {c : Char} {first : Attribute}
    (h : readAttribute? c text = some (first, rest)) (hne : rest ≠ []) (more : Text) :
    readAttribute? c (text ++ more) = some (first, rest ++ more) := by
  have hspace : (text.dropWhile fun d => !endsAttributeName d).dropWhile isSpace ≠ [] := by
    intro hnil
    rw [readAttribute?_of_bare (by simp [hnil]), hnil] at h
    obtain ⟨-, rfl⟩ := Prod.mk.inj (Option.some.inj h)
    exact hne rfl
  have hname : text.dropWhile (fun d => !endsAttributeName d) ≠ [] := by
    intro hnil
    rw [hnil] at hspace
    exact hspace rfl
  obtain ⟨htake, hskip⟩ := run_append hname more
  have hafter := (run_append hspace more).2
  rw [← hskip] at hafter
  by_cases hequals : ∃ after,
      (text.dropWhile fun d => !endsAttributeName d).dropWhile isSpace = '=' :: after
  · obtain ⟨after, hequals⟩ := hequals
    rw [readAttribute?_of_equals hequals] at h
    obtain ⟨⟨value, rest⟩, hvalue, heq⟩ := Option.map_eq_some_iff.1 h
    obtain ⟨rfl, rfl⟩ := Prod.mk.inj heq
    rw [hequals, List.cons_append] at hafter
    rw [readAttribute?_of_equals hafter, readValue?_append hvalue hne, htake]
    rfl
  · rw [not_exists] at hequals
    rw [readAttribute?_of_bare hequals] at h
    obtain ⟨rfl, rfl⟩ := Prod.mk.inj (Option.some.inj h)
    obtain ⟨d, inner, hcons⟩ := List.exists_cons_of_ne_nil hspace
    rw [readAttribute?_of_bare, hafter, htake]
    rw [hafter, hcons]
    rw [hcons] at hequals
    exact fun other heq => hequals inner (congrArg (· :: inner) (List.cons.inj heq).1)

theorem readAttributes?_of_stray (htext : text.dropWhile isSpace = '/' :: rest)
    (hgt : ∀ after, rest ≠ '>' :: after) : readAttributes? text = readAttributes? rest := by
  rw [readAttributes?]
  split
  · next hs => exact absurd (hs.symm.trans htext) (List.cons_ne_nil _ _).symm
  · next hs => exact absurd (List.cons.inj (hs.symm.trans htext)).1 (by decide)
  · next after hs => exact absurd (List.cons.inj (hs.symm.trans htext)).2.symm (hgt after)
  · next hs => rw [(List.cons.inj (hs.symm.trans htext)).2]
  · next hslash hs => exact absurd (List.cons.inj (hs.symm.trans htext)).1 hslash

/-- The attributes of a complete tag are read as the same whatever follows the tag. -/
theorem readAttributes?_append {attributes : List Attribute} {selfClosing : Bool}
    (h : readAttributes? text = some (attributes, selfClosing, rest)) (more : Text) :
    readAttributes? (text ++ more) = some (attributes, selfClosing, rest ++ more) := by
  have hdrop : ∀ {text : Text} {c : Char} {after : Text}, text.dropWhile isSpace = c :: after →
      (text ++ more).dropWhile isSpace = c :: (after ++ more) := by
    intro text c after hs
    rw [(run_append (by simp [hs]) more).2, hs, List.cons_append]
  have hne : ∀ {text : Text} {read : List Attribute × Bool × Text},
      readAttributes? text = some read → text ≠ [] := by
    rintro text read hread rfl
    simp [readAttributes?] at hread
  fun_induction readAttributes? text generalizing attributes selfClosing rest with
  | case1 => cases h
  | case2 text r hs =>
    simp only [Option.some.injEq, Prod.mk.injEq] at h
    obtain ⟨rfl, rfl, rfl⟩ := h
    exact readAttributes?_of_gt (hdrop hs)
  | case3 text r hs =>
    simp only [Option.some.injEq, Prod.mk.injEq] at h
    obtain ⟨rfl, rfl, rfl⟩ := h
    exact readAttributes?_of_slash (hdrop hs)
  | case4 text r hgt hs ih =>
    rw [readAttributes?_of_stray (hdrop hs), ih h]
    obtain ⟨d, inner, rfl⟩ := List.exists_cons_of_ne_nil (hne h)
    exact fun after heq => hgt inner (congrArg (· :: inner) (List.cons.inj heq).1)
  | case5 => cases h
  | case6 text c r hgt hslashgt hslash hs first after hfirst ih =>
    obtain ⟨⟨others, s, r'⟩, hothers, heq⟩ := Option.map_eq_some_iff.1 h
    simp only [Prod.mk.injEq] at heq
    obtain ⟨rfl, rfl, rfl⟩ := heq
    have hafter := readAttribute?_append hfirst (hne hothers) more
    rw [readAttributes?_of_attribute (hdrop hs) ?_ ?_ hafter, ih hothers]
    · rfl
    · exact hgt
    · exact hslash

theorem scanTag?_append {kind : TagKind} {tag : Tag} (h : scanTag? kind text = some (tag, rest))
    (more : Text) : scanTag? kind (text ++ more) = some (tag, rest ++ more) := by
  obtain ⟨⟨attributes, selfClosing, after⟩, hread, heq⟩ := Option.map_eq_some_iff.1 h
  obtain ⟨rfl, rfl⟩ := Prod.mk.inj heq
  have hname : text.dropWhile (fun c => !endsName c) ≠ [] := by
    intro hnil
    rw [hnil] at hread
    simp [readAttributes?] at hread
  obtain ⟨htake, hskip⟩ := run_append hname more
  rw [scanTag?, hskip, htake, readAttributes?_append hread]
  rfl

theorem scanTag?_of_tagToken {kind : TagKind} {tag : Tag}
    (h : tagToken kind text = ([.tag tag], [])) : scanTag? kind text = some (tag, []) := by
  unfold tagToken at h
  split at h
  · next hscan =>
    simp only [Prod.mk.injEq, List.cons.injEq, Token.tag.injEq, and_true] at h
    rw [hscan, h.1, h.2]
  · cases h

/-- A complete tag is read as the same whatever is open and whatever follows it. -/
theorem scan_tag_append {first : Char} {tag : Tag} (hfirst : (first.isAlpha || first = '/') = true)
    (h : scan false ('<' :: first :: text) = ([.tag tag], [])) (inForeign : Bool) (more : Text) :
    scan inForeign ('<' :: first :: text ++ more) = ([.tag tag], more) := by
  have htag : ∀ {kind : TagKind} {text : Text}, tagToken kind text = ([.tag tag], []) →
      tagToken kind (text ++ more) = ([.tag tag], more) := by
    intro kind text htoken
    rw [tagToken, scanTag?_append (scanTag?_of_tagToken htoken)]
    rfl
  rw [Bool.or_eq_true, decide_eq_true_eq] at hfirst
  rcases hfirst with hfirst | rfl
  · have hne : ∀ c : Char, c.isAlpha = false → first ≠ c := by
      rintro c hc rfl
      rw [hfirst] at hc
      cases hc
    have hscan : ∀ inForeign text, scan inForeign ('<' :: first :: text) =
        tagToken .start (first :: text) := by
      intro inForeign text
      rw [scan, if_pos rfl, scanMarkup, if_pos hfirst]
      · exact hne '!' (by decide)
      · exact hne '/' (by decide)
      · exact hne '?' (by decide)
    rw [hscan] at h
    exact (hscan inForeign (text ++ more)).trans (htag h)
  · have hscan : ∀ inForeign text, scan inForeign ('<' :: '/' :: text) = scanEndTag text :=
      fun _ _ => rfl
    rw [hscan] at h
    refine (hscan inForeign (text ++ more)).trans ?_
    unfold scanEndTag at h
    split at h
    · cases h
    · cases h
    · next c inner hgt =>
      split at h
      · next hc =>
        rw [List.cons_append, scanEndTag, if_pos hc]
        · exact htag h
        · exact hgt
      · cases h

end Append

end SlimTemplate.Html
