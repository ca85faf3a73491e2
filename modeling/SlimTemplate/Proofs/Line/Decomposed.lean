import SlimTemplate.Proofs.Line.Parts

/-!
# Lines taken apart at their head

A line with a head is a tag name, marks, attributes and a remainder, in this order, and each part is
as long as it can be. The attributes begin with a bracket and end where as many brackets are closed
as are open, not counting those in quotes. This describes a head without saying how it is read, and
there is one head that fits: the one that is read. The head alone fits the same description, so it
is read as the same parts.

## Main definitions

* `Head.outsideQuotes`, `Head.IsOpen`: the characters that are not in quotes, and whether they leave
  a bracket open.
* `Head.nesting`: what is open behind a character.
* `Head.IsBracketList`: a bracket that is open up to the end of the list.
* `Head.Decomposes`: the parts of a line.

## Main statements

* `Head.readBrackets_eq_iff`: what is read as a list of attributes.
* `Head.scan?_eq_some_iff`: the head that is read is the one that the line consists of.
* `Head.Decomposes.without_remainder`: the parts of a head alone.
-/

namespace SlimTemplate.Head

variable {c : Char} {depth : Nat} {quote : Option Char} {content text rest list after : Text}
  {head : Head}

/-! ## Brackets -/

/-- The characters outside of quotes, the quotes left out. A quote that is never closed runs to the
end. -/
def outsideQuotes (quote : Option Char) : Text → Text
  | [] => []
  | c :: text =>
    match quote with
    | some q => outsideQuotes (if c = q then none else some q) text
    | none =>
      if c = '"' || c = '\'' then outsideQuotes (some c) text else c :: outsideQuotes none text

/-- Whether a text leaves a bracket open, where `depth` of them and perhaps a quote were open before
it. -/
def LeavesOpen (depth : Nat) (quote : Option Char) (text : Text) : Prop :=
  (outsideQuotes quote text).count ']' < depth + (outsideQuotes quote text).count '['

/-- Whether a bracket is open at the end of a text. -/
def IsOpen (text : Text) : Prop :=
  (outsideQuotes none text).count ']' < (outsideQuotes none text).count '['

/-- A list of attributes: a bracket that stays open up to the end of the list and is closed there,
unless nothing follows. -/
structure IsBracketList (list after : Text) : Prop where
  head? : list.head? = some '['
  isOpen : ∀ before behind, list = before ++ behind → before ≠ [] → behind ≠ [] → IsOpen before
  closed : IsOpen list → after = []

theorem isOpen_cons (text : Text) : IsOpen ('[' :: text) ↔ LeavesOpen 1 none text := by
  simp [IsOpen, LeavesOpen, outsideQuotes, Nat.add_comm]

theorem leavesOpen_nil : LeavesOpen depth quote [] ↔ 0 < depth := by
  simp [LeavesOpen, outsideQuotes]

/-- The brackets and the quote that are open behind a character, where `depth` brackets and perhaps
a quote were open before it. -/
def nesting (depth : Nat) (quote : Option Char) (c : Char) : Nat × Option Char :=
  match quote with
  | some q => (depth, if c = q then none else some q)
  | none =>
    if c = '"' || c = '\'' then (depth, some c)
    else if c = '[' then (depth + 1, none)
    else if c = ']' then (depth - 1, none)
    else (depth, none)

theorem leavesOpen_cons (hdepth : 0 < depth) (quote : Option Char) (c : Char) (text : Text) :
    LeavesOpen depth quote (c :: text) ↔
      LeavesOpen (nesting depth quote c).1 (nesting depth quote c).2 text := by
  cases quote with
  | some q => rfl
  | none =>
    by_cases hquote : c = '"' ∨ c = '\''
    · simp [LeavesOpen, outsideQuotes, nesting, hquote]
    by_cases hopen : c = '['
    · subst hopen
      simp [LeavesOpen, outsideQuotes, nesting]
      omega
    by_cases hclose : c = ']'
    · subst hclose
      simp [LeavesOpen, outsideQuotes, nesting]
      omega
    · simp [LeavesOpen, outsideQuotes, nesting, hquote, hopen, hclose]

/-- A list of attributes goes on up to the character behind which no bracket is open. -/
theorem readBrackets_cons_eq (hdepth : 0 < depth) (quote : Option Char) (c : Char) (text : Text) :
    readBrackets depth quote (c :: text) =
      if (nesting depth quote c).1 = 0 then ([c], text)
      else (c :: (readBrackets (nesting depth quote c).1 (nesting depth quote c).2 text).1,
        (readBrackets (nesting depth quote c).1 (nesting depth quote c).2 text).2) := by
  have hne : depth ≠ 0 := hdepth.ne'
  cases quote with
  | some q => simp [readBrackets, nesting, hne]
  | none =>
    by_cases hquote : c = '"' ∨ c = '\''
    · simp [readBrackets, nesting, hquote, hne]
    by_cases hopen : c = '['
    · simp [readBrackets, nesting, hopen]
    by_cases hclose : c = ']'
    · simp [readBrackets, nesting, hclose, Nat.sub_eq_zero_iff_le]
    · simp [readBrackets, nesting, hquote, hopen, hclose, hne]

theorem cons_fst_eq_iff {read : Text × Text} :
    (c :: read.1, read.2) = (c :: list, after) ↔ read = (list, after) := by
  rw [Prod.mk.injEq, List.cons.injEq, and_iff_right rfl, ← Prod.mk.injEq]

/-- What is read behind an open bracket: it stays open up to the end of what is read, and is closed
there unless nothing follows. -/
theorem readBrackets_eq_iff (hdepth : 0 < depth) :
    readBrackets depth quote (list ++ after) = (list, after) ↔
      (∀ before behind, list = before ++ behind → behind ≠ [] → LeavesOpen depth quote before) ∧
        (LeavesOpen depth quote list → after = []) := by
  induction list generalizing depth quote with
  | nil =>
    rw [List.nil_append, leavesOpen_nil]
    refine ⟨fun h => ⟨fun before behind heq hne => ?_, fun _ => ?_⟩,
      fun h => by rw [h.2 hdepth]; rfl⟩
    · exact absurd (List.append_eq_nil_iff.1 heq.symm).2 hne
    · cases after with
      | nil => rfl
      | cons c after =>
        rw [readBrackets_cons_eq hdepth] at h
        split at h <;> cases h
  | cons c list ih =>
    have hcons := leavesOpen_cons hdepth quote c
    rw [List.cons_append, readBrackets_cons_eq hdepth, hcons]
    split
    · -- The last bracket is closed, so the list ends here.
      next hzero =>
      have hclosed : ¬LeavesOpen depth quote [c] := by
        rw [hcons, leavesOpen_nil]
        exact Nat.not_lt.2 hzero.le
      constructor
      · rintro ⟨⟩
        refine ⟨fun before behind heq hne => ?_, fun hopen => absurd ((hcons []).2 hopen) hclosed⟩
        cases before with
        | nil => exact leavesOpen_nil.2 hdepth
        | cons d before =>
          exact absurd (List.append_eq_nil_iff.1 (List.cons.inj heq).2.symm).2 hne
      · rintro ⟨hopen, -⟩
        cases list with
        | nil => rfl
        | cons d list => exact absurd (hopen [c] (d :: list) rfl (List.cons_ne_nil d list)) hclosed
    · next hpos =>
      rw [cons_fst_eq_iff, ih (Nat.pos_of_ne_zero hpos)]
      refine and_congr_left fun _ => ⟨fun hopen before behind heq hne => ?_,
        fun hopen before behind heq hne => ?_⟩
      · cases before with
        | nil => exact leavesOpen_nil.2 hdepth
        | cons d before =>
          obtain ⟨rfl, hlist⟩ := List.cons.inj heq
          exact (hcons before).2 (hopen before behind hlist hne)
      · exact (hcons before).1 (hopen (c :: before) behind (congrArg (c :: ·) heq) hne)

theorem readBrackets_bracket (text : Text) :
    readBrackets 0 none ('[' :: text) =
      ('[' :: (readBrackets 1 none text).1, (readBrackets 1 none text).2) := by
  simp [readBrackets]

/-- A list of attributes is read where it stands, and nothing else is read as one. -/
theorem isBracketList_iff :
    IsBracketList list after ↔
      list.head? = some '[' ∧ readBrackets 0 none (list ++ after) = (list, after) := by
  cases list with
  | nil => exact ⟨fun h => (nomatch h.head?), fun h => (nomatch h.1)⟩
  | cons c list =>
    by_cases hc : c = '['
    · subst hc
      rw [List.cons_append, readBrackets_bracket, cons_fst_eq_iff, readBrackets_eq_iff Nat.one_pos]
      constructor
      · refine fun h => ⟨rfl, fun before behind heq hne => ?_, fun hopen => ?_⟩
        · exact (isOpen_cons before).1
            (h.isOpen ('[' :: before) behind (congrArg ('[' :: ·) heq) (List.cons_ne_nil _ _) hne)
        · exact h.closed ((isOpen_cons list).2 hopen)
      · rintro ⟨-, hopen, hclosed⟩
        refine ⟨rfl, fun before behind heq hne hbehind => ?_, fun h => ?_⟩
        · obtain ⟨d, before, rfl⟩ := List.exists_cons_of_ne_nil hne
          obtain ⟨rfl, hlist⟩ := List.cons.inj heq
          exact (isOpen_cons before).2 (hopen before behind hlist hbehind)
        · exact hclosed ((isOpen_cons list).1 h)
    · exact ⟨fun h => absurd (Option.some.inj h.head?) hc, fun h => absurd (Option.some.inj h.1) hc⟩

/-! ## The parts of a line -/

/-- A tag name: a letter, and behind it characters of tag names. -/
def IsTagName (name : Text) : Prop :=
  ∃ c rest, name = c :: rest ∧ c.isAlpha = true ∧ ∀ d ∈ rest, isTagChar d = true

/-- What stands behind the names of a line. -/
def behindNames (head : Head) : Text :=
  head.attributes.getD [] ++ head.remainder

/-- The parts of a line with a head. What stands behind a part does not go on with it. -/
structure Decomposes (head : Head) (content : Text) : Prop where
  eq_append : content = head.text ++ head.remainder
  isTagName : ∀ name ∈ head.element, IsTagName name
  begins : head.element = none → ∃ c ∈ content.head?, c = '#' ∨ c = '.'
  isName : ∀ mark ∈ head.marks, mark.IsName
  isBracketList : ∀ list ∈ head.attributes, IsBracketList list head.remainder
  /-- The tag name goes on as long as it can, -/
  element_ends : head.element.isSome = true → head.marks = [] →
    ∀ c ∈ head.behindNames.head?, isTagChar c = false
  /-- so does the last identifier or class, -/
  name_ends : head.marks ≠ [] → ∀ c ∈ head.behindNames.head?, isNameChar c = false
  /-- all identifiers and classes are among the marks, -/
  marks_end : ∀ mark rest, Mark.IsName mark → head.behindNames ≠ mark.text ++ rest
  /-- and what begins with a bracket is a list of attributes. -/
  attributes_end : head.attributes = none → head.remainder.head? ≠ some '['

theorem Decomposes.eq_append_behindNames (h : head.Decomposes content) :
    content = head.element.getD [] ++ (head.marks.flatMap Mark.text ++ head.behindNames) := by
  rw [h.eq_append, Head.text, behindNames, List.append_assoc, List.append_assoc]

/-! ## Reading the parts -/

/-- Where no name stands behind a sign no mark is read. -/
theorem readMarks_of_forall_ne (h : ∀ mark rest, Mark.IsName mark → text ≠ mark.text ++ rest) :
    readMarks text = ([], text) := by
  fun_cases readMarks text with
  | case1 => rfl
  | case2 c text name hmark marks after hread =>
    exact absurd (text_takeWhile_append c text).symm (h _ _ (isName_takeWhile hmark))
  | case3 => rfl

/-- All marks are read. -/
theorem readMarks_snd_ne {mark : Mark} (hmark : mark.IsName) (text rest : Text) :
    (readMarks text).2 ≠ mark.text ++ rest := by
  fun_induction readMarks text with
  | case1 => exact (List.cons_ne_nil _ _).symm
  | case2 c text name hsign marks after hread ih =>
    rw [hread] at ih
    exact ih
  | case3 c text name hsign =>
    intro heq
    obtain ⟨rfl, rfl⟩ := List.cons.inj heq
    obtain ⟨d, letters, hname⟩ := List.exists_cons_of_ne_nil hmark.name_ne_nil
    have hd : isNameChar d = true := hmark.name d (hname ▸ List.mem_cons_self)
    exact hsign (by simp [name, hmark.sign, hname, hd])

theorem readMarks_snd_of_nil (h : (readMarks text).1 = []) : (readMarks text).2 = text := by
  have happend := flatMap_text_readMarks text
  rwa [h, List.flatMap_nil, List.nil_append] at happend

/-- The last name is read as far as it goes. -/
theorem isNameChar_eq_false_of_mem_readMarks_snd (h : (readMarks text).1 ≠ []) :
    ∀ c ∈ (readMarks text).2.head?, isNameChar c = false := by
  fun_induction readMarks text with
  | case1 => exact absurd rfl h
  | case2 c text name hsign marks after hread ih =>
    rw [hread] at ih
    cases marks with
    | nil =>
      have hafter : after = text.dropWhile isNameChar := by
        have hnil : (readMarks (text.dropWhile isNameChar)).1 = [] := by rw [hread]
        have hself := readMarks_snd_of_nil hnil
        rwa [hread] at hself
      exact fun d hd => Text.eq_false_of_mem_head?_dropWhile (hafter ▸ hd)
    | cons mark marks => exact ih (List.cons_ne_nil mark marks)
  | case3 => exact absurd rfl h

theorem behindNames_scanAfterName (element : Option Text) (text : Text) :
    (scanAfterName element text).behindNames = (readMarks text).2 := by
  rw [behindNames, scanAfterName_eq, readAttributes_append]

theorem isBracketList_readBrackets (text : Text) :
    IsBracketList (readBrackets 0 none ('[' :: text)).1 (readBrackets 0 none ('[' :: text)).2 :=
  isBracketList_iff.2 ⟨by rw [readBrackets_bracket]; rfl, by rw [readBrackets_append]⟩

/-- What begins with a bracket is a list of attributes, and there are no others. -/
theorem readAttributes_spec (text : Text) :
    (∀ list ∈ (readAttributes text).1, IsBracketList list (readAttributes text).2) ∧
      ((readAttributes text).1 = none → (readAttributes text).2.head? ≠ some '[') := by
  cases text with
  | nil => exact ⟨fun _ h => (nomatch h), fun _ h => nomatch h⟩
  | cons c text =>
    by_cases hc : c = '['
    · subst hc
      rw [readAttributes_bracket]
      exact ⟨fun list h => Option.some.inj h ▸ isBracketList_readBrackets text, fun h => nomatch h⟩
    · rw [readAttributes_of_not_bracket hc]
      exact ⟨fun _ h => (nomatch h), fun _ h => hc (Option.some.inj h)⟩

theorem exists_sign_of_scan? (h : scan? content = some head) (helement : head.element = none) :
    ∃ c ∈ content.head?, c = '#' ∨ c = '.' := by
  obtain ⟨c, line, rfl, halpha | hsign⟩ := scan?_eq_some h
  · rw [scan?_of_isAlpha halpha, Option.some.injEq] at h
    subst h
    cases helement
  · exact ⟨c, rfl, hsign⟩

/-- The tag name is read as far as it goes. -/
theorem isTagChar_eq_false_of_scan? (h : scan? content = some head)
    (helement : head.element.isSome = true) (hmarks : head.marks = []) :
    ∀ c ∈ head.behindNames.head?, isTagChar c = false := by
  obtain ⟨c, line, rfl, halpha | hsign⟩ := scan?_eq_some h
  · rw [scan?_of_isAlpha halpha, Option.some.injEq] at h
    subst h
    rw [behindNames_scanAfterName, readMarks_snd_of_nil hmarks]
    exact fun d hd => Text.eq_false_of_mem_head?_dropWhile hd
  · rw [scan?_of_sign hsign, Option.some.injEq] at h
    subst h
    cases helement

/-- A line consists of the parts that are read. -/
theorem decomposes_of_scan? (h : scan? content = some head) : head.Decomposes content := by
  obtain ⟨text, htext⟩ := exists_scanAfterName h
  have hbehind : head.behindNames = (readMarks text).2 := by
    rw [htext, behindNames_scanAfterName]
  refine ⟨(text_append_remainder h).symm, element_eq_cons h, exists_sign_of_scan? h,
    isName_of_mem_marks h, ?_, isTagChar_eq_false_of_scan? h, fun hne => ?_,
    fun mark rest hmark => ?_, ?_⟩
  · rw [htext]
    exact (readAttributes_spec _).1
  · rw [hbehind]
    rw [htext] at hne
    exact isNameChar_eq_false_of_mem_readMarks_snd hne
  · rw [hbehind]
    exact readMarks_snd_ne hmark text rest
  · rw [htext]
    exact (readAttributes_spec _).2

/-! ## One head for each line -/

theorem mem_head?_append (h : c ∈ text.head?) : c ∈ (text ++ rest).head? := by
  obtain ⟨more, rfl⟩ := List.head?_eq_some_iff.1 h
  rfl

namespace Decomposes

variable (h : head.Decomposes content)

include h

theorem readMarks_behindNames : readMarks head.behindNames = ([], head.behindNames) :=
  readMarks_of_forall_ne h.marks_end

/-- The attributes are read where they stand. -/
theorem readAttributes_behindNames :
    readAttributes head.behindNames = (head.attributes, head.remainder) := by
  cases hattributes : head.attributes with
  | some list =>
    obtain ⟨hhead, hread⟩ := isBracketList_iff.1 (h.isBracketList list hattributes)
    obtain ⟨inner, rfl⟩ : ∃ inner, list = '[' :: inner := List.head?_eq_some_iff.1 hhead
    rw [behindNames, hattributes, Option.getD_some, List.cons_append, readAttributes_bracket,
      ← List.cons_append, hread]
  | none =>
    rw [behindNames, hattributes, Option.getD_none, List.nil_append]
    cases hremainder : head.remainder with
    | nil => rfl
    | cons c rest =>
      refine readAttributes_of_not_bracket (fun hc => h.attributes_end hattributes ?_) rest
      rw [hremainder, hc]
      rfl

/-- Behind the names no name goes on. -/
theorem isNameChar_eq_false : ∀ c ∈ head.behindNames.head?, isNameChar c = false := by
  by_cases hmarks : head.marks = []
  · intro c hc
    cases helement : head.element with
    | some name =>
      have htag := h.element_ends (by rw [helement]; rfl) hmarks c hc
      by_contra hname
      exact absurd (htag.symm.trans (isTagChar_of_isNameChar (Bool.not_eq_false _ ▸ hname)))
        (by decide)
    | none =>
      obtain ⟨d, hd, hsign⟩ := h.begins helement
      rw [h.eq_append_behindNames, helement, hmarks] at hd
      obtain rfl : c = d := Option.some.inj (hc.symm.trans hd)
      rcases hsign with rfl | rfl <;> decide
  · exact h.name_ends hmarks

/-- Behind the tag name its parts are read. -/
theorem scanAfterName_eq_self :
    scanAfterName head.element (head.marks.flatMap Mark.text ++ head.behindNames) = head := by
  have hmarks := readMarks_flatMap_text h.isName
  rw [scanAfterName_eq, readMarks_append (by rw [hmarks]) h.isNameChar_eq_false, hmarks,
    h.readMarks_behindNames, h.readAttributes_behindNames, List.append_nil]

/-- Behind the tag name it does not go on. -/
theorem isTagChar_eq_false (helement : head.element.isSome = true) :
    ∀ c ∈ (head.marks.flatMap Mark.text ++ head.behindNames).head?, isTagChar c = false := by
  cases hmarks : head.marks with
  | nil => exact h.element_ends helement hmarks
  | cons mark marks =>
    intro c hc
    obtain rfl : mark.sign = c := Option.some.inj hc
    rcases (h.isName mark (hmarks ▸ List.mem_cons_self)).sign with hsign | hsign
    · rw [hsign]
      decide
    · rw [hsign]
      decide

theorem scan?_eq_some : scan? content = some head := by
  have hself := h.scanAfterName_eq_self
  rw [h.eq_append_behindNames]
  cases helement : head.element with
  | some name =>
    obtain ⟨c, letters, rfl, halpha, hletters⟩ := h.isTagName name helement
    have hstop := h.isTagChar_eq_false (by rw [helement]; rfl)
    rw [Option.getD_some, List.cons_append, scan?_of_isAlpha halpha,
      takeWhile_append_of_head? hstop, dropWhile_append_of_head? hstop,
      List.takeWhile_eq_self_iff.2 hletters, List.dropWhile_eq_nil_iff.2 hletters, List.nil_append,
      ← helement, hself]
  | none =>
    obtain ⟨c, hc, hsign⟩ := h.begins helement
    obtain ⟨line, hline⟩ := List.head?_eq_some_iff.1 hc
    rw [h.eq_append_behindNames, helement, Option.getD_none, List.nil_append] at hline
    rw [Option.getD_none, List.nil_append, hline, scan?_of_sign hsign, ← hline, ← helement, hself]

/-- A head alone, if it is not empty, consists of the same parts with nothing behind them. -/
theorem without_remainder (hne : head.text ≠ []) :
    Decomposes { head with remainder := [] } head.text := by
  have hbehind : head.behindNames =
      Head.behindNames { head with remainder := [] } ++ head.remainder := by
    rw [behindNames, behindNames, List.append_nil]
  have hhead : ∀ c ∈ (Head.behindNames { head with remainder := [] }).head?,
      c ∈ head.behindNames.head? := fun c hc => hbehind ▸ mem_head?_append hc
  refine ⟨(List.append_nil _).symm, h.isTagName, fun helement => ?_, h.isName, ?_,
    fun helement hmarks c hc => h.element_ends helement hmarks c (hhead c hc),
    fun hmarks c hc => h.name_ends hmarks c (hhead c hc), fun mark rest hmark heq => ?_,
    fun _ hhead => nomatch hhead⟩
  · obtain ⟨c, hc, hsign⟩ := h.begins helement
    obtain ⟨d, inner, htext⟩ := List.exists_cons_of_ne_nil hne
    rw [h.eq_append, htext] at hc
    rw [htext]
    exact ⟨c, hc, hsign⟩
  · intro list hlist
    obtain ⟨hhead, hopen, -⟩ := h.isBracketList list hlist
    exact ⟨hhead, hopen, fun _ => rfl⟩
  · refine h.marks_end mark (rest ++ head.remainder) hmark ?_
    rw [hbehind, heq, List.append_assoc]

end Decomposes

/-- The head that is read is the one that the line consists of. -/
theorem scan?_eq_some_iff : scan? content = some head ↔ head.Decomposes content :=
  ⟨decomposes_of_scan?, Decomposes.scan?_eq_some⟩

end SlimTemplate.Head
