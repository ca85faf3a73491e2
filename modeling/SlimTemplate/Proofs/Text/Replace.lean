import SlimTemplate.Proofs.Text.Mention

/-!
# Texts replaced and restored

Occurrences of a part are looked for from the left and never overlap, so a text goes on behind an
occurrence or, where none begins, behind its first character. A stand-in that shares no character
with the part takes it out of a text for good, and the text comes back when the stand-in is
replaced in turn, unless it spelled most of the stand-in by itself.

## Main definitions

* `Text.replaceInduction`: induction on a text as occurrences are found in it.

## Main statements

* `Text.not_isInfix_replaceAll`: what was replaced is gone.
* `Text.replaceAll_replaceAll`: replacing the stand-in restores the text.
* `Text.replaceAll_append_of_apart`: two texts that no occurrence joins are replaced apart.
-/

namespace SlimTemplate.Text

variable {part standIn text : Text}

/-! ## Occurrence by occurrence -/

/-- The characters of an occurrence that was replaced are left out. -/
theorem replaceFrom_eq (part standIn : Text) (skip : Nat) (text : Text) :
    replaceFrom part standIn skip text = replaceAll part standIn (text.drop skip) := by
  induction skip generalizing text with
  | zero => rfl
  | succ skip ih =>
    cases text with
    | nil => rfl
    | cons c text => rw [replaceFrom, ih, List.drop_succ_cons]

/-- An occurrence at the start is replaced, and the text goes on behind it. -/
theorem replaceAll_append (hne : part ≠ []) (standIn rest : Text) :
    replaceAll part standIn (part ++ rest) = standIn ++ replaceAll part standIn rest := by
  obtain ⟨c, more, rfl⟩ := List.exists_cons_of_ne_nil hne
  have hfound : hasPrefix (c :: more) (c :: (more ++ rest)) = true :=
    hasPrefix_iff.2 (List.prefix_append (c :: more) rest)
  rw [List.cons_append, replaceAll, replaceFrom, if_pos hfound, replaceFrom_eq, List.length_cons,
    Nat.add_sub_cancel, List.drop_left]

/-- Where no occurrence begins the text goes on behind the first character. -/
theorem replaceAll_cons {c : Char} (h : ¬part <+: c :: text) (standIn : Text) :
    replaceAll part standIn (c :: text) = c :: replaceAll part standIn text := by
  rw [replaceAll, replaceFrom, if_neg (mt hasPrefix_iff.1 h), replaceAll]

/-- Induction on a text as occurrences of a part are found in it: it is empty, or begins with an
occurrence, or with a character at which none begins. -/
@[elab_as_elim]
theorem replaceInduction {motive : Text → Prop} (hne : part ≠ []) (nil : motive [])
    (found : ∀ rest, motive rest → motive (part ++ rest))
    (skipped : ∀ c text, ¬part <+: c :: text → motive text → motive (c :: text))
    (text : Text) : motive text := by
  induction hlength : text.length using Nat.strong_induction_on generalizing text with
  | _ length ih =>
    subst hlength
    cases text with
    | nil => exact nil
    | cons c text =>
      by_cases hfound : part <+: c :: text
      · obtain ⟨rest, hrest⟩ := hfound
        have hshorter : rest.length < (c :: text).length := by
          have hpos := List.length_pos_iff.2 hne
          rw [← hrest, List.length_append]
          omega
        rw [← hrest]
        exact found rest (ih rest.length hshorter rest rfl)
      · exact skipped c text hfound (ih text.length (Nat.lt_succ_self _) text rfl)

/-- Where a text does not occur there is nothing to replace. -/
theorem replaceAll_of_not_isInfix (h : ¬part <:+: text) (standIn : Text) :
    replaceAll part standIn text = text := by
  induction text with
  | nil => rfl
  | cons c text ih =>
    rw [replaceAll_cons (fun hfound => h hfound.isInfix),
      ih fun hfound => h (List.infix_cons hfound)]

/-- A single character is replaced wherever it stands. -/
theorem replaceAll_singleton (p : Char) (replacement text : Text) :
    replaceAll [p] replacement text =
      text.flatMap fun c => if c = p then replacement else [c] := by
  induction text with
  | nil => rfl
  | cons c text ih =>
    rw [List.flatMap_cons, ← ih]
    by_cases hc : c = p
    · rw [if_pos hc, hc]
      exact replaceAll_append (List.cons_ne_nil p []) replacement text
    · rw [if_neg hc, replaceAll_cons]
      · rfl
      · exact fun hfound => hc (List.cons_prefix_cons.1 hfound).1.symm

/-! ## A part and its stand-in -/

section StandIn

variable (hne : part ≠ []) (hstandIn : standIn ≠ [])
include hne hstandIn

/-- A text without the characters of the stand-in that begins what was replaced begins the text. -/
theorem isPrefix_of_isPrefix_replaceAll {start : Text} (hstart : ∀ c ∈ start, c ∉ standIn)
    (h : start <+: replaceAll part standIn text) : start <+: text := by
  induction text using replaceInduction hne generalizing start with
  | nil => exact h
  | found rest _ =>
    rw [replaceAll_append hne] at h
    cases start with
    | nil => exact List.nil_prefix
    | cons d start =>
      obtain ⟨e, more, rfl⟩ := List.exists_cons_of_ne_nil hstandIn
      obtain rfl : d = e := (List.cons_prefix_cons.1 h).1
      exact absurd List.mem_cons_self (hstart d List.mem_cons_self)
  | skipped c text hskip ih =>
    rw [replaceAll_cons hskip] at h
    cases start with
    | nil => exact List.nil_prefix
    | cons d start =>
      obtain ⟨rfl, hrest⟩ := List.cons_prefix_cons.1 h
      have htail := ih (fun e he => hstart e (List.mem_cons_of_mem _ he)) hrest
      exact List.cons_prefix_cons.2 ⟨rfl, htail⟩

/-- What shares no character with the stand-in occurs after replacing only where it did before. -/
theorem isInfix_of_isInfix_replaceAll {mark : Text} (hmark : mark ≠ [])
    (hdisjoint : ∀ c ∈ standIn, c ∉ mark) (h : mark <:+: replaceAll part standIn text) :
    mark <:+: text := by
  induction text using replaceInduction hne with
  | nil => exact h
  | found rest ih =>
    rw [replaceAll_append hne, isInfix_append_left_iff hmark hdisjoint] at h
    exact (ih h).trans (List.suffix_append part rest).isInfix
  | skipped c text hskip ih =>
    have hstart : ∀ d ∈ mark, d ∉ standIn := fun d hd hmem => hdisjoint d hmem hd
    rw [replaceAll_cons hskip, List.infix_cons_iff] at h
    rcases h with hbegins | hlater
    · rw [← replaceAll_cons hskip] at hbegins
      exact (isPrefix_of_isPrefix_replaceAll hne hstandIn hstart hbegins).isInfix
    · exact List.infix_cons (ih hlater)

/-- A part that shares no character with its stand-in is gone when it was replaced. -/
theorem not_isInfix_replaceAll (hdisjoint : ∀ c ∈ standIn, c ∉ part) (text : Text) :
    ¬part <:+: replaceAll part standIn text := by
  induction text using replaceInduction hne with
  | nil => exact fun h => hne (List.infix_nil.1 h)
  | found rest ih => rwa [replaceAll_append hne, isInfix_append_left_iff hne hdisjoint]
  | skipped c text hskip ih =>
    have hstart : ∀ d ∈ part, d ∉ standIn := fun d hd hmem => hdisjoint d hmem hd
    intro h
    have hreplaced := replaceAll_cons hskip standIn
    rw [hreplaced, List.infix_cons_iff] at h
    rcases h with hbegins | hlater
    · rw [← hreplaced] at hbegins
      exact hskip (isPrefix_of_isPrefix_replaceAll hne hstandIn hstart hbegins)
    · exact ih hlater

end StandIn

/-- Where a character of the stand-in is missing nothing was replaced. -/
theorem replaceAll_of_not_mem (hne : part ≠ []) {c : Char} (hc : c ∈ standIn)
    (h : c ∉ replaceAll part standIn text) : replaceAll part standIn text = text := by
  induction text using replaceInduction hne with
  | nil => rfl
  | found rest _ =>
    rw [replaceAll_append hne] at h
    exact absurd (List.mem_append_left _ hc) h
  | skipped d text hskip ih =>
    rw [replaceAll_cons hskip] at h ⊢
    rw [ih fun hmem => h (List.mem_cons_of_mem d hmem)]

/-- An end without the last character of the stand-in stands behind everything that was
replaced. -/
theorem isSuffix_of_isSuffix_replaceAll (hne : part ≠ []) {c : Char}
    (hc : standIn.getLast? = some c) {ending : Text} (hending : c ∉ ending)
    (h : ending <:+ replaceAll part standIn text) : ending <:+ text := by
  induction text using replaceInduction hne with
  | nil => exact h
  | found rest ih =>
    rw [replaceAll_append hne] at h
    refine (ih ?_).trans (List.suffix_append part rest)
    obtain ⟨before, hbefore⟩ := h
    rcases List.append_eq_append_iff.1 hbefore with ⟨more, hstandIn, hending'⟩ | ⟨more, -, hrest⟩
    · cases hmore : more.getLast? with
      | none =>
        rw [List.getLast?_eq_none_iff.1 hmore, List.nil_append] at hending'
        exact hending' ▸ List.suffix_rfl
      | some d =>
        have hd : standIn.getLast? = some d := by
          rw [hstandIn, List.getLast?_append, hmore, Option.some_or]
        obtain rfl : c = d := Option.some.inj (hc.symm.trans hd)
        rw [hending'] at hending
        exact absurd (List.mem_append_left _ (List.mem_of_getLast? hmore)) hending
    · exact ⟨more, hrest.symm⟩
  | skipped d text hskip ih =>
    have hreplaced := replaceAll_cons hskip standIn
    rw [hreplaced] at h
    rcases List.suffix_cons_iff.1 h with hall | hlater
    · rw [← hreplaced] at hall
      rw [hall] at hending ⊢
      rw [replaceAll_of_not_mem hne (List.mem_of_getLast? hc) hending]
    · exact (ih hlater).trans (List.suffix_cons d text)

/-! ## Restoring -/

section Core

variable {core : Text} (hne : part ≠ []) (hcore : core <+: standIn)
  -- Where a stand-in begins within another, all of the core stands before it.
  (hborder : ∀ k, 0 < k → k < standIn.length → standIn.drop k <+: standIn → core.length ≤ k)
include hne hcore hborder

/-- Where the rest of a stand-in is found after replacing, the rest of its core was there
before. -/
theorem isPrefix_drop_core {k : Nat} (hk : 0 < k)
    (h : standIn.drop k <+: replaceAll part standIn text) : core.drop k <+: text := by
  have hdone : ∀ {n : Nat} {rest : Text}, core.length ≤ n → core.drop n <+: rest := by
    intro n rest hlength
    rw [List.drop_eq_nil_of_le hlength]
    exact List.nil_prefix
  by_cases hrest : k < standIn.length
  swap
  · exact hdone (hcore.length_le.trans (Nat.le_of_not_lt hrest))
  induction text using replaceInduction hne generalizing k with
  | nil =>
    have hlength := h.length_le
    rw [List.length_drop] at hlength
    change standIn.length - k ≤ 0 at hlength
    omega
  | found rest _ =>
    -- The rest of one stand-in begins with another, so the core stood before.
    rw [replaceAll_append hne] at h
    have hshort : (standIn.drop k).length ≤ standIn.length := by
      rw [List.length_drop]
      omega
    have hbegins : standIn.drop k <+: standIn :=
      List.prefix_of_prefix_length_le h (List.prefix_append standIn _) hshort
    exact hdone (hborder k hk hrest hbegins)
  | skipped c text hskip ih =>
    by_cases hlength : core.length ≤ k
    · exact hdone hlength
    have hlt : k < core.length := Nat.lt_of_not_le hlength
    have hhead : core[k] = standIn[k] := hcore.getElem hlt
    rw [replaceAll_cons hskip, List.drop_eq_getElem_cons hrest, List.cons_prefix_cons] at h
    rw [List.drop_eq_getElem_cons hlt, List.cons_prefix_cons, hhead]
    refine ⟨h.1, ?_⟩
    by_cases hnext : k + 1 < standIn.length
    · exact ih (Nat.succ_pos k) h.2 hnext
    · exact hdone (hcore.length_le.trans (Nat.le_of_not_lt hnext))

/-- Replacing the stand-in restores a text that does not hold the core of the stand-in. -/
theorem replaceAll_replaceAll (hcoreNe : core ≠ []) (h : ¬core <:+: text) :
    replaceAll standIn part (replaceAll part standIn text) = text := by
  have hstandIn : standIn ≠ [] := by
    rintro rfl
    exact hcoreNe (List.prefix_nil.1 hcore)
  induction text using replaceInduction hne with
  | nil => rfl
  | found rest ih =>
    have hrest : ¬core <:+: rest :=
      fun hfound => h (hfound.trans (List.suffix_append part rest).isInfix)
    rw [replaceAll_append hne, replaceAll_append hstandIn, ih hrest]
  | skipped c text hskip ih =>
    -- A stand-in that began here would have its core in the text.
    have hnone : ¬standIn <+: c :: replaceAll part standIn text := by
      intro hbegins
      obtain ⟨d, more, rfl⟩ := List.exists_cons_of_ne_nil hcoreNe
      obtain ⟨after, rfl⟩ := hcore
      obtain ⟨rfl, hrest⟩ := List.cons_prefix_cons.1 hbegins
      have htail : more <+: text :=
        isPrefix_drop_core hne (List.prefix_append (d :: more) after) hborder Nat.one_pos hrest
      exact h (List.cons_prefix_cons.2 ⟨rfl, htail⟩).isInfix
    rw [replaceAll_cons hskip, replaceAll_cons hnone, ih fun hfound => h (List.infix_cons hfound)]

end Core

/-- Two texts are replaced apart if no occurrence begins in the one and ends in the other. -/
theorem replaceAll_append_of_apart (hne : part ≠ []) {a b : Text}
    (h : ∀ ending, ending <:+ a → ending ≠ [] → part <+: ending ++ b → part <+: ending)
    (standIn : Text) :
    replaceAll part standIn (a ++ b) = replaceAll part standIn a ++ replaceAll part standIn b := by
  induction a using replaceInduction hne with
  | nil => rfl
  | found rest ih =>
    have hrest := ih fun ending hending => h ending (hending.trans (List.suffix_append part rest))
    rw [List.append_assoc, replaceAll_append hne, replaceAll_append hne, hrest, List.append_assoc]
  | skipped c a hskip ih =>
    have hnone : ¬part <+: c :: (a ++ b) :=
      fun hbegins => hskip (h (c :: a) List.suffix_rfl (List.cons_ne_nil c a) hbegins)
    have hrest := ih fun ending hending => h ending (hending.trans (List.suffix_cons c a))
    rw [List.cons_append, replaceAll_cons hnone, hrest, replaceAll_cons hskip, List.cons_append]

end SlimTemplate.Text
