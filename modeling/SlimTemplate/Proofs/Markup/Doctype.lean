import SlimTemplate.Markup.Doctype
import SlimTemplate.Proofs.Text.Ascii
import SlimTemplate.Proofs.Text.Search

/-!
# What is taken out with a declaration

A declaration goes from `<!DOCTYPE` through the first `>`. Where its body holds more than blanks, it
is the declaration that is taken out of the markup, and all around it stays. A declaration with a
blank body has no body to the reader, who looks for one behind the `>`: where another `>` follows,
what is between the two is taken out as well.

## Main definitions

* `Doctype.IsDeclaration`: a declaration and its body, with the blanks before it.
* `Doctype.IsFirst`: the first declaration of a markup.
* `Doctype.Leaves`: what is left behind a declaration.

## Main statements

* `Doctype.read?_of_isDeclaration`: how a declaration is read.
* `Doctype.strip_takesOut`: what is taken out of a markup.
-/

namespace SlimTemplate.Doctype

variable {body text rest after found : Text}

/-- A declaration: the keyword in any case, a body that begins with a blank, and the first `>`. -/
structure IsDeclaration (body text : Text) : Prop where
  exists_word : ∃ word, text = word ++ body ++ ['>'] ∧ Text.toAsciiLower word = keyword
  exists_blank : ∃ c ∈ body.head?, Text.isBlank c = true
  not_mem : '>' ∉ body

/-- The first declaration of a markup, and what stands around it. -/
structure IsFirst (source before declaration body behind : Text) : Prop where
  eq_append : source = before ++ declaration ++ behind
  isDeclaration : IsDeclaration body declaration
  length_le : ∀ before' declaration' body' behind', source = before' ++ declaration' ++ behind' →
    IsDeclaration body' declaration' → before.length ≤ before'.length

/-- What is left behind a declaration with something behind it: all of that, or where the body is
blank, what stands behind the next `>`. -/
def Leaves (body rest after : Text) : Prop :=
  ((∃ c ∈ body, Text.isBlank c = false) ∨ '>' ∉ rest) ∧ after = rest ∨
    (∀ c ∈ body, Text.isBlank c = true) ∧ ∃ more, rest = more ++ '>' :: after ∧ '>' ∉ more

/-! ## Reading a declaration -/

theorem closeAt?_append {before : Text} (h : '>' ∉ before) (after : Text) :
    closeAt? (before ++ '>' :: after) = some (before, after) := by
  induction before with
  | nil => rfl
  | cons c before ih =>
    obtain ⟨hc, hbefore⟩ := not_or.1 (mt List.mem_cons.2 h)
    rw [List.cons_append, closeAt?, ih hbefore]
    · rfl
    · exact fun heq => hc heq.symm

theorem closeAt?_of_not_mem (h : '>' ∉ text) : closeAt? text = none := by
  induction text with
  | nil => rfl
  | cons c text ih =>
    obtain ⟨hc, htext⟩ := not_or.1 (mt List.mem_cons.2 h)
    rw [closeAt?, ih htext]
    · rfl
    · exact fun heq => hc heq.symm

theorem bodyAfter?_append {before : Text} (h : '>' ∉ before) (blanks : Text) (c : Char)
    (after : Text) :
    bodyAfter? blanks (c :: (before ++ '>' :: after)) = some (c :: before, after) := by
  unfold bodyAfter?
  simp only [closeAt?_append h]

theorem length_of_toAsciiLower {word : Text} (h : Text.toAsciiLower word = keyword) :
    word.length = keyword.length := by
  rw [← h, Text.toAsciiLower, List.length_map]

/-- Behind the keyword, blanks and a body are read. -/
theorem read?_append {word : Text} (hword : Text.toAsciiLower word = keyword) {blanks : Text}
    (hne : blanks ≠ []) (hblanks : ∀ c ∈ blanks, Text.isBlank c = true) (rest : Text)
    (hrest : ∀ c ∈ rest.head?, Text.isBlank c = false) :
    read? (word ++ (blanks ++ rest)) = bodyAfter? blanks.reverse rest := by
  have hlength := length_of_toAsciiLower hword
  have htake : rest.takeWhile Text.isBlank = [] := by
    cases rest with
    | nil => rfl
    | cons c rest => exact List.takeWhile_cons_of_neg (by simp [hrest c rfl])
  have hdrop : rest.dropWhile Text.isBlank = rest := by
    cases rest with
    | nil => rfl
    | cons c rest => exact List.dropWhile_cons_of_neg (by simp [hrest c rfl])
  rw [read?, List.take_left' hlength, if_pos hword, List.drop_left' hlength]
  simp only [List.takeWhile_append_of_pos hblanks, List.dropWhile_append_of_pos hblanks, htake,
    hdrop, List.append_nil, List.isEmpty_iff, if_neg hne]

/-- Where the body holds more than blanks the declaration ends at its own `>`. -/
theorem exists_read?_of_body (h : IsDeclaration body text)
    (hbody : ∃ c ∈ body, Text.isBlank c = false) (rest : Text) :
    ∃ found, read? (text ++ rest) = some (found, rest) := by
  obtain ⟨⟨word, rfl, hword⟩, ⟨d, hd, hblank⟩, hclose⟩ := h
  obtain ⟨c, more, hdrop⟩ : ∃ c more, body.dropWhile Text.isBlank = c :: more := by
    refine List.exists_cons_of_ne_nil fun hnil => ?_
    obtain ⟨c, hc, hother⟩ := hbody
    exact Bool.false_ne_true (hother.symm.trans (List.dropWhile_eq_nil_iff.1 hnil c hc))
  obtain ⟨blanks, rfl, hblanks, hc⟩ := Text.eq_append_of_dropWhile hdrop
  have hne : blanks ≠ [] := by
    rintro rfl
    obtain rfl : c = d := Option.some.inj hd
    exact Bool.false_ne_true (hc.symm.trans hblank)
  have hmore : '>' ∉ more := fun hmem =>
    hclose (List.mem_append_right _ (List.mem_cons_of_mem c hmem))
  have hread := read?_append hword hne hblanks (c :: (more ++ '>' :: rest))
    (fun e he => Option.some.inj he ▸ hc)
  rw [bodyAfter?_append hmore] at hread
  exact ⟨c :: more, by simpa using hread⟩

theorem read?_of_blank (h : IsDeclaration body text) (hbody : ∀ c ∈ body, Text.isBlank c = true)
    (rest : Text) : read? (text ++ rest) = bodyAfter? body.reverse ('>' :: rest) := by
  obtain ⟨⟨word, rfl, hword⟩, ⟨d, hd, -⟩, -⟩ := h
  have hne : body ≠ [] := List.ne_nil_of_mem (List.mem_of_head? hd)
  rw [← read?_append hword hne hbody ('>' :: rest)]
  · simp
  · intro c hc
    rw [← Option.some.inj hc]
    decide

/-- A declaration is read unless its body is a single blank and no `>` follows. -/
theorem read?_of_isDeclaration (h : IsDeclaration body text) (rest : Text) :
    (∃ found after, read? (text ++ rest) = some (found, after) ∧ Leaves body rest after) ∨
      read? (text ++ rest) = none ∧ '>' ∉ rest ∧ ∃ blank, body = [blank] := by
  by_cases hbody : ∀ c ∈ body, Text.isBlank c = true
  · rw [read?_of_blank h hbody]
    by_cases hclose : '>' ∈ rest
    · obtain ⟨more, after, rfl, hmore⟩ := List.eq_append_cons_of_mem hclose
      rw [bodyAfter?_append hmore]
      exact .inl ⟨_, after, rfl, .inr ⟨hbody, more, rfl, hmore⟩⟩
    · unfold bodyAfter?
      simp only [closeAt?_of_not_mem hclose, if_true]
      split
      · next last second others _ => exact .inl ⟨_, rest, rfl, .inl ⟨.inr hclose, rfl⟩⟩
      · next hshort =>
        refine .inr ⟨rfl, hclose, ?_⟩
        obtain ⟨blank, hblank, -⟩ := h.exists_blank
        have hmem : blank ∈ body.reverse := List.mem_reverse.2 (List.mem_of_head? hblank)
        match hreverse : body.reverse with
        | [] => exact absurd (hreverse ▸ hmem) List.not_mem_nil
        | [last] => exact ⟨last, by rw [← List.reverse_reverse body, hreverse]; rfl⟩
        | last :: second :: others => exact absurd hreverse (hshort last second others)
  · have hother : ∃ c ∈ body, Text.isBlank c = false := by simpa using hbody
    obtain ⟨found, hread⟩ := exists_read?_of_body h hother rest
    exact .inl ⟨found, rest, hread, .inl ⟨.inl hother, rfl⟩⟩

theorem mem_of_bodyAfter? {blanks : Text} {read : Text × Text}
    (h : bodyAfter? blanks text = some read) : '>' ∈ text := by
  by_contra hclose
  cases text with
  | nil => cases h
  | cons c text =>
    obtain ⟨hc, htext⟩ := not_or.1 (mt List.mem_cons.2 hclose)
    unfold bodyAfter? at h
    simp [closeAt?_of_not_mem htext, Ne.symm hc] at h

/-- What is read begins with a declaration. -/
theorem exists_isDeclaration_of_read? (h : read? text = some (found, after)) :
    ∃ declaration rest body, text = declaration ++ rest ∧ IsDeclaration body declaration := by
  rw [read?] at h
  split at h
  · next hword =>
    dsimp only at h
    split at h
    · cases h
    · next hblanks =>
      have hclose := List.dropWhile_subset _ (mem_of_bodyAfter? h)
      obtain ⟨body, rest, hrest, hbody⟩ := List.eq_append_cons_of_mem hclose
      rw [hrest] at hblanks
      refine ⟨text.take keyword.length ++ body ++ ['>'], rest, body, ?_, ⟨_, rfl, hword⟩, ?_, hbody⟩
      · refine (List.take_append_drop keyword.length text).symm.trans ?_
        rw [hrest]
        simp
      · cases body with
        | nil => exact absurd rfl hblanks
        | cons c body =>
          refine ⟨c, rfl, ?_⟩
          by_contra hc
          rw [List.cons_append, List.takeWhile_cons_of_neg hc] at hblanks
          exact hblanks rfl
  · cases h

/-- What is left where a declaration was read. -/
theorem leaves_of_read? (h : read? text = some (found, after)) :
    ∃ declaration rest body, text = declaration ++ rest ∧ IsDeclaration body declaration ∧
      Leaves body rest after := by
  obtain ⟨declaration, rest, body, rfl, hdeclaration⟩ := exists_isDeclaration_of_read? h
  refine ⟨declaration, rest, body, rfl, hdeclaration, ?_⟩
  rcases read?_of_isDeclaration hdeclaration rest with ⟨_, _, hread, hleaves⟩ | ⟨hnone, -⟩
  · obtain ⟨-, rfl⟩ := Prod.mk.inj (Option.some.inj (hread.symm.trans h))
    exact hleaves
  · rw [hnone] at h
    cases h

/-! ## The first declaration -/

/-- A markup is read up to the first place where a declaration is read. -/
theorem strip_cases (source : Text) :
    (strip source = (none, source) ∧ ∀ before text, source = before ++ text → read? text = none) ∨
      ∃ before text found after, source = before ++ text ∧ read? text = some (found, after) ∧
        strip source = (some (ofBody found), before ++ after) ∧
        ∀ before' text', source = before' ++ text' → before'.length < before.length →
          read? text' = none := by
  induction source with
  | nil =>
    refine .inl ⟨rfl, fun before text heq => ?_⟩
    rw [(List.append_eq_nil_iff.1 heq.symm).2]
    rfl
  | cons c source ih =>
    cases hread : read? (c :: source) with
    | some read =>
      refine .inr ⟨[], c :: source, read.1, read.2, rfl, hread, ?_, fun _ _ _ h => nomatch h⟩
      rw [strip, hread]
      rfl
    | none =>
      rcases ih with ⟨hstrip, hnone⟩ | ⟨before, text, found, after, rfl, hfound, hstrip, hfirst⟩
      · refine .inl ⟨by rw [strip, hread, hstrip], fun before text heq => ?_⟩
        cases before with
        | nil => exact (show c :: source = text from heq) ▸ hread
        | cons d before => exact hnone before text (List.cons.inj heq).2
      · refine .inr ⟨c :: before, text, found, after, rfl, hfound, ?_,
          fun before' text' heq hlt => ?_⟩
        · rw [strip, hread, hstrip]
          rfl
        cases before' with
        | nil => exact (show c :: (before ++ text) = text' from heq) ▸ hread
        | cons d before' =>
          exact hfirst before' text' (List.cons.inj heq).2 (Nat.lt_of_succ_lt_succ hlt)

theorem not_mem_of_toAsciiLower {word : Text} (h : Text.toAsciiLower word = keyword) :
    '>' ∉ word := by
  intro hmem
  have hlower : ('>' : Char).toLower ∈ keyword := h ▸ List.mem_map_of_mem hmem
  exact absurd hlower (by decide)

/-- A declaration has exactly one `>`, which is its last character. -/
theorem IsDeclaration.count_close (h : IsDeclaration body text) : text.count '>' = 1 := by
  obtain ⟨⟨word, rfl, hword⟩, -, hbody⟩ := h
  rw [List.count_append, List.count_append,
    List.count_eq_zero_of_not_mem (not_mem_of_toAsciiLower hword),
    List.count_eq_zero_of_not_mem hbody]
  rfl

theorem IsDeclaration.close_mem (h : IsDeclaration body text) : '>' ∈ text :=
  List.count_pos_iff.1 (h.count_close ▸ Nat.one_pos)

/-- A declaration begins with `<`, and the rest of its keyword has no other. -/
theorem eq_cons_of_toAsciiLower {word : Text} (h : Text.toAsciiLower word = keyword) :
    ∃ letters, word = '<' :: letters ∧ '<' ∉ letters := by
  cases word with
  | nil => cases h
  | cons c letters =>
    have hkeyword : keyword = '<' :: "!doctype".toList := rfl
    obtain ⟨hc, hletters⟩ := List.cons.inj (h.trans hkeyword)
    obtain rfl := Text.eq_of_toLower_eq (by decide) hc
    refine ⟨letters, rfl, fun hmem => ?_⟩
    have hlower : ('<' : Char).toLower ∈ "!doctype".toList := hletters ▸ List.mem_map_of_mem hmem
    exact absurd hlower (by decide)

/-- A declaration that is not read is the last one: no other begins in it, and behind it there is no
`>` that could end one. -/
theorem not_isDeclaration_behind {blank : Char} {before other declaration : Text}
    (h : IsDeclaration [blank] text) (hrest : '>' ∉ rest)
    (hother : IsDeclaration body declaration) (hne : before ≠ [])
    (heq : text ++ rest = before ++ (declaration ++ other)) : False := by
  have hnot : ∀ more, rest ≠ more ++ (declaration ++ other) := by
    rintro more rfl
    exact hrest (List.mem_append_right _ (List.mem_append_left _ hother.close_mem))
  rcases List.append_eq_append_iff.1 heq with ⟨more, -, hmore⟩ | ⟨more, htext, hmore⟩
  · exact hnot more hmore
  obtain ⟨⟨word, hword, hlower⟩, -, -⟩ := hother
  obtain ⟨letters, rfl, -⟩ := eq_cons_of_toAsciiLower hlower
  cases more with
  | nil => exact hnot [] hmore.symm
  | cons c more =>
    -- The other declaration would begin at a `<` behind the first character of this one.
    have hc : c = '<' := by
      rw [hword] at hmore
      exact (List.cons.inj hmore).1.symm
    obtain ⟨⟨word', hword', hlower'⟩, ⟨d, hd, hblank⟩, -⟩ := h
    obtain ⟨letters', rfl, hletters'⟩ := eq_cons_of_toAsciiLower hlower'
    obtain ⟨e, before, rfl⟩ := List.exists_cons_of_ne_nil hne
    have htail : letters' ++ [blank] ++ ['>'] = before ++ c :: more :=
      (List.cons.inj (hword'.symm.trans htext)).2
    have hmem : '<' ∈ letters' ++ [blank] ++ ['>'] := by
      rw [htail, hc]
      exact List.mem_append_right before List.mem_cons_self
    obtain rfl : blank = d := Option.some.inj hd
    rcases List.mem_append.1 hmem with hmem | hmem
    · rcases List.mem_append.1 hmem with hmem | hmem
      · exact hletters' hmem
      · rw [← List.mem_singleton.1 hmem] at hblank
        exact absurd hblank (by decide)
    · exact absurd hmem (by decide)

/-- A declaration that stands before another one is read. -/
theorem read?_ne_none {before other declaration body' : Text} (h : IsDeclaration body' text)
    (hother : IsDeclaration body declaration) (hne : before ≠ [])
    (heq : text ++ rest = before ++ (declaration ++ other)) : read? (text ++ rest) ≠ none := by
  rcases read?_of_isDeclaration h rest with ⟨found, after, hread, -⟩ | ⟨-, hrest, blank, rfl⟩
  · rw [hread]
    exact Option.some_ne_none _
  · exact (not_isDeclaration_behind h hrest hother hne heq).elim

/-- Where the first declaration that is read begins, the first declaration of the markup begins: one
that stands before it would be read. -/
theorem isFirst_of_read?_none {before declaration behind : Text}
    (hdeclaration : IsDeclaration body declaration)
    (hfirst : ∀ before' text', before ++ (declaration ++ behind) = before' ++ text' →
      before'.length < before.length → read? text' = none) :
    IsFirst (before ++ (declaration ++ behind)) before declaration body behind := by
  refine ⟨(List.append_assoc _ _ _).symm, hdeclaration,
    fun before' declaration' body' behind' heq hdeclaration' => ?_⟩
  by_contra hlt
  have hlt := Nat.lt_of_not_le hlt
  rw [List.append_assoc] at heq
  obtain ⟨more, rfl⟩ : before' <+: before :=
    List.prefix_of_prefix_length_le ⟨_, heq.symm⟩ ⟨_, rfl⟩ hlt.le
  have hne : more ≠ [] := by
    rintro rfl
    exact absurd hlt (by simp)
  have hbehind : declaration' ++ behind' = more ++ (declaration ++ behind) := by
    rw [List.append_assoc] at heq
    exact (List.append_cancel_left heq).symm
  exact read?_ne_none hdeclaration' hdeclaration hne hbehind
    (hfirst before' (declaration' ++ behind') heq hlt)

/-- Taking the doctype out of a markup. If one is found, then the first declaration of the markup is
taken out and all around it stays, unless its body is blank and another `>` follows: then what
stands between the two is taken out as well. If none is found, then the markup stays as it is, and
it has no declaration with a body that is not blank. -/
theorem strip_takesOut (source : Text) :
    (∀ doctype rest, strip source = (some doctype, rest) →
      ∃ before declaration body behind after, IsFirst source before declaration body behind ∧
        rest = before ++ after ∧ Leaves body behind after) ∧
    ∀ rest, strip source = (none, rest) →
      rest = source ∧ ∀ before declaration body behind, source = before ++ declaration ++ behind →
        IsDeclaration body declaration → ∀ c ∈ body, Text.isBlank c = true := by
  rcases strip_cases source with
    ⟨hstrip, hnone⟩ | ⟨before, text, found, after, rfl, hfound, hstrip, hfirst⟩
  · rw [hstrip]
    refine ⟨fun _ _ h => (nomatch h), fun rest h => ⟨(Prod.mk.inj h).2.symm, ?_⟩⟩
    rintro before declaration body behind rfl hdeclaration
    have hread := hnone before (declaration ++ behind) (List.append_assoc _ _ _)
    by_contra hbody
    have hother : ∃ c ∈ body, Text.isBlank c = false := by simpa using hbody
    obtain ⟨found, hfound⟩ := exists_read?_of_body hdeclaration hother behind
    rw [hread] at hfound
    cases hfound
  · rw [hstrip]
    refine ⟨fun doctype rest h => ?_, fun _ h => (nomatch h)⟩
    obtain ⟨-, rfl⟩ := Prod.mk.inj h
    obtain ⟨declaration, behind, body, rfl, hdeclaration, hleaves⟩ := leaves_of_read? hfound
    exact ⟨before, declaration, body, behind, after, isFirst_of_read?_none hdeclaration hfirst, rfl,
      hleaves⟩

theorem strip_takesOut_page :
    strip "<!DOCTYPE html>\n<html></html>".toList = (some .html, "\n<html></html>".toList) ∧
      (∃ before declaration body behind after,
        IsFirst "<!DOCTYPE html>\n<html></html>".toList before declaration body behind ∧
        "\n<html></html>".toList = before ++ after ∧ Leaves body behind after) ∧
      strip "<p>Hi</p>".toList = (none, "<p>Hi</p>".toList) ∧
      ∀ before declaration body behind, "<p>Hi</p>".toList = before ++ declaration ++ behind →
        IsDeclaration body declaration → ∀ c ∈ body, Text.isBlank c = true :=
  ⟨by decide, (strip_takesOut _).1 .html _ (by decide), by decide,
    ((strip_takesOut "<p>Hi</p>".toList).2 "<p>Hi</p>".toList (by decide)).2⟩

/-- With a blank body the first tag of a page is lost: what is taken out has two `>`, so it is more
than a declaration. -/
theorem strip_takesOut_tag :
    IsFirst "<!DOCTYPE ><p>Hi</p>".toList [] "<!DOCTYPE >".toList [' '] "<p>Hi</p>".toList ∧
      strip "<!DOCTYPE ><p>Hi</p>".toList = (some .generic, "Hi</p>".toList) ∧
      ¬∃ before declaration body behind,
        "<!DOCTYPE ><p>Hi</p>".toList = before ++ declaration ++ behind ∧
          "Hi</p>".toList = before ++ behind ∧ IsDeclaration body declaration := by
  refine ⟨⟨rfl, ⟨⟨"<!DOCTYPE".toList, rfl, by decide⟩, ⟨' ', rfl, by decide⟩, by decide⟩,
    fun _ _ _ _ _ _ => Nat.zero_le _⟩, by decide, ?_⟩
  rintro ⟨before, declaration, body, behind, hsource, hrest, hdeclaration⟩
  have hthree : (before ++ declaration ++ behind).count '>' = 3 := hsource ▸ by decide
  have hone : (before ++ behind).count '>' = 1 := hrest ▸ by decide
  have hdeclaration := hdeclaration.count_close
  rw [List.count_append] at hone
  rw [List.count_append, List.count_append] at hthree
  omega

end SlimTemplate.Doctype
