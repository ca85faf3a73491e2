import Mathlib.Data.List.TakeWhile
import SlimTemplate.Directive.Marker
import SlimTemplate.Proofs.Text.Number
import SlimTemplate.Proofs.Text.Search

/-!
# Directives put back

No placeholder holds `<` or `>`, so the parts of a text between such characters are searched one
by one. A placeholder that was given out is found where it stands as long as the text before it
does not itself begin one: two placeholders can overlap in no more than one character, which is no
digit.

## Main definitions

* `Directive.spelled`: the numbers of the placeholders that a text holds.

## Main statements

* `Directive.putBack_append_cons`: a character that no placeholder holds separates two texts.
* `Directive.putBack_append_placeholder`: the directive of a placeholder is put back.
* `Directive.putBack_eq_self_of_spelled`: a text keeps placeholders that were not given out.
-/

namespace SlimTemplate

theorem Text.dropPrefix?_append_cons {start : Text} {c : Char} (hc : c ∉ start) (a b : Text) :
    Text.dropPrefix? start (a ++ c :: b) = (Text.dropPrefix? start a).map (· ++ c :: b) := by
  induction start generalizing a with
  | nil => rfl
  | cons p start ih =>
    have hp : p ≠ c := by
      rintro rfl
      exact hc List.mem_cons_self
    cases a with
    | nil => simp [Text.dropPrefix?, hp]
    | cons d a =>
      by_cases hd : p = d
      · simpa [Text.dropPrefix?, hd] using ih (fun h => hc (List.mem_cons_of_mem _ h)) a
      · simp [Text.dropPrefix?, hd]

namespace Directive

/-- A character that separates texts in which placeholders are looked for. -/
def IsSeparator (c : Char) : Prop :=
  c ∉ placeholderStart ∧ c ∉ "__".toList ∧ Text.isDecimalDigit c = false

theorem isSeparator_lt : IsSeparator '<' :=
  ⟨by decide, by decide, by decide⟩

theorem isSeparator_gt : IsSeparator '>' :=
  ⟨by decide, by decide, by decide⟩

theorem readPlaceholder?_append_cons {c : Char} (hc : IsSeparator c) (a b : Text) :
    readPlaceholder? (a ++ c :: b) =
      (readPlaceholder? a).map fun (digits, after) => (digits, after ++ c :: b) := by
  obtain ⟨hstart, hend, hdigit⟩ := hc
  simp only [readPlaceholder?, Text.dropPrefix?_append_cons hstart]
  cases Text.dropPrefix? placeholderStart a with
  | none => rfl
  | some rest =>
    simp only [Option.map_some, Text.takeWhile_append_cons_of_neg hdigit,
      Text.dropWhile_append_cons_of_neg hdigit, Text.dropPrefix?_append_cons hend]
    split
    · rfl
    · rw [Option.map_map, Option.map_map]
      rfl

/-- What takes the place of a placeholder with these digits. -/
def restored (stash : List Text) (digits : Text) : Text :=
  match (Text.readSize? digits).bind (stash[·]?) with
  | some directive => directive
  | none => placeholderStart ++ digits ++ "__".toList

theorem readPlaceholder?_nil : readPlaceholder? [] = none :=
  rfl

theorem putBack_of_readPlaceholder? {stash : List Text} {text digits after : Text}
    (h : readPlaceholder? text = some (digits, after)) :
    putBack stash text = restored stash digits ++ putBack stash after := by
  cases text with
  | nil =>
    rw [readPlaceholder?_nil] at h
    simp at h
  | cons c text =>
    rw [putBack]
    split
    · next heq =>
      rw [h] at heq
      obtain ⟨rfl, rfl⟩ := Prod.mk.inj (Option.some.inj heq)
      cases hdirective : (Text.readSize? digits).bind (stash[·]?) with
      | some directive => simp only [restored, hdirective]
      | none => simp only [restored, hdirective]
    · next heq =>
      rw [h] at heq
      simp at heq

theorem putBack_cons {stash : List Text} {c : Char} {text : Text}
    (h : readPlaceholder? (c :: text) = none) :
    putBack stash (c :: text) = c :: putBack stash text := by
  rw [putBack]
  split
  · next heq =>
    rw [h] at heq
    simp at heq
  · rfl

/-- What a separator separates is searched on its own. -/
theorem putBack_append_cons {c : Char} (hc : IsSeparator c) (stash : List Text) (a b : Text) :
    putBack stash (a ++ c :: b) = putBack stash a ++ c :: putBack stash b := by
  have hnone : readPlaceholder? (c :: b) = none := by
    have h := readPlaceholder?_append_cons hc [] b
    rwa [List.nil_append] at h
  fun_induction putBack stash a with
  | case1 => rw [List.nil_append, putBack_cons hnone, List.nil_append]
  | case2 d a digits after hread directive hdirective ih =>
    have h := readPlaceholder?_append_cons hc (d :: a) b
    rw [hread, Option.map_some] at h
    have hrestored : restored stash digits = directive := by
      simp only [restored, hdirective]
    rw [putBack_of_readPlaceholder? h, hrestored, ih, List.append_assoc]
  | case3 d a digits after hread hdirective ih =>
    have h := readPlaceholder?_append_cons hc (d :: a) b
    rw [hread, Option.map_some] at h
    have hrestored : restored stash digits = placeholderStart ++ digits ++ "__".toList := by
      simp only [restored, hdirective]
    rw [putBack_of_readPlaceholder? h, hrestored, ih]
    simp only [List.append_assoc]
  | case4 d a hread ih =>
    have h := readPlaceholder?_append_cons hc (d :: a) b
    rw [hread, Option.map_none] at h
    rw [List.cons_append] at h ⊢
    rw [putBack_cons h, ih, List.cons_append]

theorem putBack_append_of_head? {c : Char} (hc : IsSeparator c) (stash : List Text) (before : Text)
    {text : Text} (h : text.head? = some c) :
    putBack stash (before ++ text) = putBack stash before ++ putBack stash text := by
  obtain ⟨rest, rfl⟩ := List.head?_eq_some_iff.1 h
  have hrest := putBack_append_cons hc stash [] rest
  rw [List.nil_append, putBack, List.nil_append] at hrest
  rw [putBack_append_cons hc, hrest]

theorem putBack_append_of_getLast? {c : Char} (hc : IsSeparator c) (stash : List Text)
    {text : Text} (h : text.getLast? = some c) (rest : Text) :
    putBack stash (text ++ rest) = putBack stash text ++ putBack stash rest := by
  obtain ⟨before, rfl⟩ := List.getLast?_eq_some_iff.1 h
  rw [putBack_append_cons hc, putBack, List.append_assoc, List.singleton_append,
    putBack_append_cons hc, List.append_assoc]
  rfl

theorem source_of_readPlaceholder? {text digits after : Text}
    (h : readPlaceholder? text = some (digits, after)) :
    placeholderStart ++ digits ++ "__".toList ++ after = text := by
  unfold readPlaceholder? at h
  split at h
  · simp at h
  · next rest hrest =>
    simp only at h
    split at h
    · simp at h
    · obtain ⟨a, ha, heq⟩ := Option.map_eq_some_iff.1 h
      obtain ⟨rfl, rfl⟩ := Prod.mk.inj heq
      have hstart := Text.dropPrefix?_eq_some_iff.1 hrest
      have hend := Text.dropPrefix?_eq_some_iff.1 ha
      rw [List.append_assoc, ← hend, List.append_assoc, List.takeWhile_append_dropWhile, ← hstart]

theorem readPlaceholder?_of_not_isInfix {text : Text} (h : ¬placeholderStart <:+: text) :
    readPlaceholder? text = none := by
  rw [Option.eq_none_iff_forall_not_mem]
  rintro ⟨digits, after⟩ hread
  refine h ⟨[], digits ++ "__".toList ++ after, ?_⟩
  rw [← source_of_readPlaceholder? hread]
  simp only [List.nil_append, List.append_assoc]

/-- A text without the beginning of a placeholder stays as it is. -/
theorem putBack_of_not_isInfix (stash : List Text) {text : Text}
    (h : ¬placeholderStart <:+: text) : putBack stash text = text := by
  induction text with
  | nil => rw [putBack]
  | cons c text ih =>
    have hread := readPlaceholder?_of_not_isInfix h
    rw [putBack_cons hread, ih (mt List.infix_cons h)]

/-! ## The directive of a placeholder -/

theorem readPlaceholder?_placeholder (n : Nat) (rest : Text) :
    readPlaceholder? (placeholder n ++ rest) = some (Text.ofNat n, rest) := by
  have hdigits : ∀ c ∈ Text.ofNat n, Text.isDecimalDigit c = true :=
    fun c hc => Text.isDecimalDigit_of_isDigit (Text.isDigit_of_mem_ofNat hc)
  have hne : (Text.ofNat n).isEmpty = false := by
    rw [List.isEmpty_eq_false_iff]
    exact Nat.toDigits_ne_nil
  have hend : "__".toList ++ rest = '_' :: '_' :: rest := rfl
  have hstop : Text.isDecimalDigit '_' = false := by decide
  have htake : (Text.ofNat n ++ ("__".toList ++ rest)).takeWhile Text.isDecimalDigit =
      Text.ofNat n := by
    rw [hend, Text.takeWhile_append_cons_of_neg hstop, List.takeWhile_eq_self_iff.2 hdigits]
  have hdrop : (Text.ofNat n ++ ("__".toList ++ rest)).dropWhile Text.isDecimalDigit =
      "__".toList ++ rest := by
    rw [hend, Text.dropWhile_append_cons_of_neg hstop, List.dropWhile_eq_nil_iff.2 hdigits]
    rfl
  rw [readPlaceholder?, placeholder, List.append_assoc, List.append_assoc,
    Text.dropPrefix?_append]
  simp only [htake, hdrop, hne, Text.dropPrefix?_append]
  rfl

/-- Where the beginning of one placeholder goes on in another, they have one character in
common. -/
theorem eq_of_append_prefix_placeholderStart {a b : Text} (h : placeholderStart = a ++ b)
    (ha : a ≠ []) (hb : b <+: placeholderStart) : b = [] ∨ b = ['_'] := by
  have hall : ∀ i : Fin 23, i ≠ 0 → placeholderStart.drop i <+: placeholderStart →
      placeholderStart.drop i = [] ∨ placeholderStart.drop i = ['_'] := by
    decide
  have hlength : a.length < 23 := by
    have := congrArg List.length h
    rw [List.length_append] at this
    change 22 = _ at this
    omega
  have hdrop : placeholderStart.drop a.length = b := by
    rw [h, List.drop_left]
  have hpos := List.length_pos_iff.2 ha
  have hborder := hall ⟨a.length, hlength⟩ (by simp [Fin.ext_iff, hpos.ne'])
  simp only [hdrop] at hborder
  exact hborder hb

/-- No placeholder begins before one that was given out and goes on in it. -/
theorem readPlaceholder?_append_placeholder {before : Text} (hne : before ≠ [])
    (h : ¬placeholderStart <:+: before) (n : Nat) (rest : Text) :
    readPlaceholder? (before ++ (placeholder n ++ rest)) = none := by
  cases hdrop : Text.dropPrefix? placeholderStart (before ++ (placeholder n ++ rest)) with
  | none => simp only [readPlaceholder?, hdrop]
  | some after =>
    have heq := Text.dropPrefix?_eq_some_iff.1 hdrop
    rcases List.append_eq_append_iff.1 heq with ⟨b, hstart, hplaceholder⟩ | ⟨b, hbefore, -⟩
    · have hbegins : b <+: placeholderStart := by
        refine List.prefix_of_prefix_length_le ⟨after, hplaceholder.symm⟩ ?_ ?_
        · rw [placeholder, List.append_assoc, List.append_assoc]
          exact List.prefix_append _ _
        · rw [hstart, List.length_append]
          omega
      rcases eq_of_append_prefix_placeholderStart hstart hne hbegins with rfl | rfl
      · rw [List.append_nil] at hstart
        exact absurd (hstart ▸ List.infix_rfl) h
      · -- The common character is no digit.
        obtain ⟨tail, htail⟩ : ∃ tail, placeholderStart = '_' :: '_' :: tail := ⟨_, rfl⟩
        rw [placeholder, htail, List.append_assoc, List.append_assoc, List.singleton_append]
          at hplaceholder
        have hafter := (List.cons.inj hplaceholder).2
        have hdigits : after.takeWhile Text.isDecimalDigit = [] := by
          rw [← hafter]
          exact List.takeWhile_cons_of_neg (by decide)
        simp only [readPlaceholder?, hdrop, hdigits]
        rfl
    · refine absurd ⟨[], b, ?_⟩ h
      rw [hbefore]
      rfl

/-- The directives from a number on begin with the one of that number. -/
theorem getElem?_of_drop_eq_cons {stash more : List Text} {directive : Text} {n : Nat}
    (h : stash.drop n = directive :: more) :
    stash[n]? = some directive ∧ stash.drop (n + 1) = more := by
  constructor
  · rw [← List.head?_drop, h, List.head?_cons]
  · rw [← List.tail_drop, h, List.tail_cons]

/-- The directive of a placeholder is put back. -/
theorem putBack_append_placeholder {stash : List Text} {before directive : Text} {n : Nat}
    (h : ¬placeholderStart <:+: before) (hn : stash[n]? = some directive)
    (hsize : n ≤ Text.maxSize) (rest : Text) :
    putBack stash (before ++ (placeholder n ++ rest)) =
      before ++ (directive ++ putBack stash rest) := by
  induction before with
  | nil =>
    rw [List.nil_append, putBack_of_readPlaceholder? (readPlaceholder?_placeholder n rest),
      restored, Text.readSize?_ofNat hsize, Option.bind_some, hn, List.nil_append]
  | cons c before ih =>
    have hread := readPlaceholder?_append_placeholder (List.cons_ne_nil c before) h n rest
    rw [List.cons_append] at hread ⊢
    rw [putBack_cons hread, ih (mt List.infix_cons h), List.cons_append]

/-! ## Placeholders that a text spells -/

/-- The numbers of the placeholders in a text, in the order in which directives would be put back
for them. -/
def spelled : Text → List Nat
  | [] => []
  | c :: text =>
    match _h : readPlaceholder? (c :: text) with
    | some (digits, after) => (Text.readSize? digits).toList ++ spelled after
    | none => spelled text
termination_by text => text.length
decreasing_by
  · exact Nat.lt_succ_of_le (length_readPlaceholder? _h)
  · simp

theorem spelled_of_readPlaceholder? {text digits after : Text}
    (h : readPlaceholder? text = some (digits, after)) :
    spelled text = (Text.readSize? digits).toList ++ spelled after := by
  cases text with
  | nil =>
    rw [readPlaceholder?_nil] at h
    simp at h
  | cons c text =>
    rw [spelled]
    split
    · next heq =>
      rw [h] at heq
      obtain ⟨rfl, rfl⟩ := Prod.mk.inj (Option.some.inj heq)
      rfl
    · next heq =>
      rw [h] at heq
      simp at heq

theorem spelled_cons {c : Char} {text : Text} (h : readPlaceholder? (c :: text) = none) :
    spelled (c :: text) = spelled text := by
  rw [spelled]
  split
  · next heq =>
    rw [h] at heq
    simp at heq
  · rfl

theorem spelled_of_not_isInfix {text : Text} (h : ¬placeholderStart <:+: text) :
    spelled text = [] := by
  induction text with
  | nil => rw [spelled]
  | cons c text ih =>
    rw [spelled_cons (readPlaceholder?_of_not_isInfix h)]
    exact ih (mt List.infix_cons h)

/-- The number of a placeholder is spelled where the placeholder stands. -/
theorem spelled_append_placeholder {before : Text} {n : Nat} (h : ¬placeholderStart <:+: before)
    (hsize : n ≤ Text.maxSize) (rest : Text) :
    spelled (before ++ (placeholder n ++ rest)) = n :: spelled rest := by
  induction before with
  | nil =>
    rw [List.nil_append, spelled_of_readPlaceholder? (readPlaceholder?_placeholder n rest),
      Text.readSize?_ofNat hsize]
    rfl
  | cons c before ih =>
    have hread := readPlaceholder?_append_placeholder (List.cons_ne_nil c before) h n rest
    rw [List.cons_append] at hread ⊢
    rw [spelled_cons hread, ih (mt List.infix_cons h)]

/-- A placeholder whose number was not given out stays. -/
theorem restored_eq {stash : List Text} {digits : Text}
    (h : ∀ n, Text.readSize? digits = some n → stash.length ≤ n) :
    restored stash digits = placeholderStart ++ digits ++ "__".toList := by
  have hnone : (Text.readSize? digits).bind (stash[·]?) = none := by
    cases hsize : Text.readSize? digits with
    | none => rfl
    | some n => exact List.getElem?_eq_none (h n hsize)
  simp only [restored, hnone]

/-- A text keeps the placeholders whose numbers were not given out. -/
theorem putBack_eq_self_of_spelled {stash : List Text} {text : Text}
    (h : ∀ n ∈ spelled text, stash.length ≤ n) : putBack stash text = text := by
  fun_induction spelled text with
  | case1 => rw [putBack]
  | case2 c text digits after hread ih =>
    have hrestored : restored stash digits = placeholderStart ++ digits ++ "__".toList := by
      refine restored_eq fun n hn => h n ?_
      rw [hn]
      exact List.mem_append_left _ (by simp)
    rw [putBack_of_readPlaceholder? hread, hrestored,
      ih fun n hn => h n (List.mem_append_right _ hn), source_of_readPlaceholder? hread]
  | case3 c text hread ih => rw [putBack_cons hread, ih h]

theorem putBack_nil (text : Text) : putBack [] text = text :=
  putBack_eq_self_of_spelled fun n _ => Nat.zero_le n

/-- A directive is put into a text that spells a number that was given out. -/
theorem mem_putBack_of_spelled {stash : List Text} {text : Text} {c : Char} {n : Nat}
    (hstash : ∀ directive ∈ stash, c ∈ directive) (hn : n ∈ spelled text)
    (hlt : n < stash.length) : c ∈ putBack stash text := by
  fun_induction spelled text with
  | case1 => simp at hn
  | case2 d text digits after hread ih =>
    rw [putBack_of_readPlaceholder? hread, List.mem_append]
    rcases List.mem_append.1 hn with hn | hn
    · left
      rw [Option.mem_toList] at hn
      have hsome : (Text.readSize? digits).bind (stash[·]?) = some stash[n] := by
        rw [hn, Option.bind_some, List.getElem?_eq_getElem hlt]
      simp only [restored, hsome]
      exact hstash _ (List.getElem_mem hlt)
    · exact Or.inr (ih hn)
  | case3 d text hread ih =>
    rw [putBack_cons hread]
    exact List.mem_cons_of_mem _ (ih hn)

end Directive

end SlimTemplate
