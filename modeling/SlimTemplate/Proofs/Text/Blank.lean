import Mathlib.Data.List.DropRight
import SlimTemplate.Text.Blank

/-!
# Blanks at the ends of a text

Trimming removes blanks and nothing else, and a trimmed text neither begins nor ends with one.
Letters, digits and signs are no blanks.

## Main statements

* `Text.trim_eq_nil_iff`: trimming leaves nothing exactly when the text is blank.
* `Text.trim_append_of_isBlank_left`, `Text.trim_append_of_isBlank_right`: blanks at the ends do
  not show after trimming.
* `Text.trim_trim`: a trimmed text is trimmed.
* `Text.isBlank_eq_false_of_isAlphanum`: letters and digits are no blanks.
-/

namespace SlimTemplate.Text

theorem dropEndWhile_eq_rdropWhile (p : Char → Bool) (text : Text) :
    dropEndWhile p text = List.rdropWhile p text := by
  induction text with
  | nil => simp [dropEndWhile]
  | cons c text ih =>
    rw [dropEndWhile, ih]
    rw [List.rdropWhile, List.rdropWhile, List.reverse_cons, List.dropWhile_append]
    cases h : text.reverse.dropWhile p with
    | nil =>
      by_cases hc : p c <;> simp [hc]
    | cons d rest =>
      cases hr : (d :: rest).reverse with
      | nil => simp at hr
      | cons e more => simp at hr ⊢; simp [hr]

/-- A text is blank when all of its characters are. -/
theorem trim_eq_nil_iff {text : Text} : trim text = [] ↔ ∀ c ∈ text, isBlank c = true := by
  rw [trim, trimEnd, trimStart, dropEndWhile_eq_rdropWhile, List.rdropWhile_eq_nil_iff]
  constructor
  · intro h c hc
    rw [← List.takeWhile_append_dropWhile (p := isBlank) (l := text)] at hc
    rcases List.mem_append.1 hc with hc | hc
    · exact List.mem_takeWhile_imp hc
    · exact h c hc
  · intro h c hc
    exact h c ((List.dropWhile_sublist isBlank).mem hc)

/-- A text with a character that is not blank is not blank. -/
theorem trim_ne_nil_of_mem {c : Char} {text : Text} (h : c ∈ text) (hc : isBlank c = false) :
    trim text ≠ [] := by
  intro hnil
  rw [trim_eq_nil_iff.1 hnil c h] at hc
  simp at hc

theorem trimEnd_eq_nil_iff {text : Text} : trimEnd text = [] ↔ ∀ c ∈ text, isBlank c = true := by
  rw [trimEnd, dropEndWhile_eq_rdropWhile, List.rdropWhile_eq_nil_iff]

/-- Only blanks are taken from the end. -/
theorem trimEnd_append_rtakeWhile (text : Text) :
    trimEnd text ++ text.rtakeWhile isBlank = text := by
  rw [trimEnd, dropEndWhile_eq_rdropWhile, List.rdropWhile_append_rtakeWhile]

theorem trimEnd_isPrefix (text : Text) : trimEnd text <+: text := by
  rw [trimEnd, dropEndWhile_eq_rdropWhile]
  exact List.rdropWhile_prefix _ _

/-- What is left when blanks are taken from the end does not consist of blanks. -/
theorem trim_trimEnd_ne_nil {text : Text} (h : trimEnd text ≠ []) : trim (trimEnd text) ≠ [] := by
  intro hnil
  rw [trimEnd, dropEndWhile_eq_rdropWhile] at h hnil
  have hlast := List.rdropWhile_last_not isBlank text h
  exact hlast (trim_eq_nil_iff.1 hnil _ (List.getLast_mem h))

theorem trimEnd_trimEnd (text : Text) : trimEnd (trimEnd text) = trimEnd text := by
  simp only [trimEnd, dropEndWhile_eq_rdropWhile, List.rdropWhile_idempotent]

theorem trimStart_suffix (text : Text) : trimStart text <:+ text :=
  List.dropWhile_suffix _

/-- Trimming only leaves characters out. -/
theorem trim_isInfix (text : Text) : trim text <:+: text :=
  (trimEnd_isPrefix (trimStart text)).isInfix.trans (trimStart_suffix text).isInfix

theorem mem_of_mem_trim {c : Char} {text : Text} (h : c ∈ trim text) : c ∈ text :=
  (trim_isInfix text).subset h

theorem mem_dropEndWhile {p : Char → Bool} {c : Char} {text : Text} (h : c ∈ text)
    (hc : p c = false) : c ∈ dropEndWhile p text := by
  induction text with
  | nil => cases h
  | cons d text ih =>
    rw [dropEndWhile]
    rcases List.mem_cons.1 h with rfl | h
    · cases dropEndWhile p text with
      | nil => simp [hc]
      | cons e rest => exact List.mem_cons_self
    · have hmem := ih h
      cases hend : dropEndWhile p text with
      | nil =>
        rw [hend] at hmem
        cases hmem
      | cons e rest => exact List.mem_cons_of_mem _ (hend ▸ hmem)

/-- Trimming leaves out nothing but blanks. -/
theorem mem_trim_iff {c : Char} {text : Text} (hc : isBlank c = false) :
    c ∈ trim text ↔ c ∈ text := by
  constructor
  · exact mem_of_mem_trim
  · intro h
    refine mem_dropEndWhile ?_ hc
    rw [← List.takeWhile_append_dropWhile (p := isBlank) (l := text)] at h
    rcases List.mem_append.1 h with h | h
    · rw [List.mem_takeWhile_imp h] at hc
      cases hc
    · exact h

theorem trimStart_append_of_isBlank {blanks : Text} (h : ∀ c ∈ blanks, isBlank c = true)
    (text : Text) : trimStart (blanks ++ text) = trimStart text :=
  List.dropWhile_append_of_pos h

theorem trimEnd_append_of_isBlank {blanks : Text} (h : ∀ c ∈ blanks, isBlank c = true)
    (text : Text) : trimEnd (text ++ blanks) = trimEnd text := by
  have hr : ∀ c ∈ blanks.reverse, isBlank c = true := by
    intro c hc
    exact h c (List.mem_reverse.1 hc)
  rw [trimEnd, trimEnd, dropEndWhile_eq_rdropWhile, dropEndWhile_eq_rdropWhile, List.rdropWhile,
    List.rdropWhile, List.reverse_append, List.dropWhile_append_of_pos hr]

/-- Blanks before a text do not show after trimming. -/
theorem trim_append_of_isBlank_left {blanks : Text} (h : ∀ c ∈ blanks, isBlank c = true)
    (text : Text) : trim (blanks ++ text) = trim text := by
  rw [trim, trimStart_append_of_isBlank h, trim]

/-- Blanks after a text do not show after trimming. -/
theorem trim_append_of_isBlank_right {blanks : Text} (h : ∀ c ∈ blanks, isBlank c = true)
    (text : Text) : trim (text ++ blanks) = trim text := by
  by_cases ht : ∀ c ∈ text, isBlank c = true
  · have hall : ∀ c ∈ text ++ blanks, isBlank c = true := by
      intro c hc
      rcases List.mem_append.1 hc with hc | hc
      · exact ht c hc
      · exact h c hc
    rw [trim_eq_nil_iff.2 ht, trim_eq_nil_iff.2 hall]
  · have hne : List.dropWhile isBlank text ≠ [] := by
      intro hnil
      exact ht (List.dropWhile_eq_nil_iff.1 hnil)
    have hstart : trimStart (text ++ blanks) = trimStart text ++ blanks := by
      rw [trimStart, trimStart, List.dropWhile_append, if_neg (by simpa using hne)]
    rw [trim, hstart, trimEnd_append_of_isBlank h, trim]

theorem trimStart_cons_of_not_isBlank {c : Char} (h : isBlank c = false) (text : Text) :
    trimStart (c :: text) = c :: text := by
  simp [trimStart, h]

theorem head?_trimStart_not_isBlank {c : Char} {text : Text}
    (h : (trimStart text).head? = some c) : isBlank c = false := by
  have hc := List.head?_dropWhile_not isBlank text
  rw [trimStart] at h
  rw [h] at hc
  simpa using hc

/-- A trimmed text does not begin with a blank. -/
theorem head?_trim_not_isBlank {c : Char} {text : Text} (h : (trim text).head? = some c) :
    isBlank c = false := by
  obtain ⟨rest, hrest⟩ := trimEnd_isPrefix (trimStart text)
  have hhead : (trimStart text).head? = some c := by
    rw [← hrest, List.head?_append, show trimEnd (trimStart text) = trim text from rfl, h]
    rfl
  exact head?_trimStart_not_isBlank hhead

/-- What is left when blanks are taken from the end does not end with one. -/
theorem getLast?_trimEnd_not_isBlank {c : Char} {text : Text}
    (h : (trimEnd text).getLast? = some c) : isBlank c = false := by
  rw [trimEnd, dropEndWhile_eq_rdropWhile, List.getLast?_eq_some_iff] at h
  obtain ⟨before, hb⟩ := h
  have hne : List.rdropWhile isBlank text ≠ [] := by simp [hb]
  have hlast := List.rdropWhile_last_not isBlank text hne
  simpa [hb] using hlast

/-- A trimmed text does not end with a blank. -/
theorem getLast?_trim_not_isBlank {c : Char} {text : Text} (h : (trim text).getLast? = some c) :
    isBlank c = false :=
  getLast?_trimEnd_not_isBlank h

theorem trimEnd_eq_self {text : Text} (hlast : ∀ c, text.getLast? = some c → isBlank c = false) :
    trimEnd text = text := by
  rw [trimEnd, dropEndWhile_eq_rdropWhile, List.rdropWhile_eq_self_iff]
  intro hne
  have hend := hlast _ (List.getLast?_eq_some_getLast hne)
  simp [hend]

/-- A text without a blank at either end is trimmed. -/
theorem trim_eq_self {text : Text} (hhead : ∀ c, text.head? = some c → isBlank c = false)
    (hlast : ∀ c, text.getLast? = some c → isBlank c = false) : trim text = text := by
  have hstart : trimStart text = text := by
    cases text with
    | nil => rfl
    | cons c rest => exact trimStart_cons_of_not_isBlank (hhead c rfl) rest
  rw [trim, hstart, trimEnd_eq_self hlast]

theorem trim_eq_self_of_forall {text : Text} (h : ∀ c ∈ text, isBlank c = false) :
    trim text = text :=
  trim_eq_self (fun c hc => h c (List.mem_of_mem_head? hc)) fun c hc => h c (List.mem_of_getLast? hc)

theorem trim_trim (text : Text) : trim (trim text) = trim text :=
  trim_eq_self (fun _ h => head?_trim_not_isBlank h) (fun _ h => getLast?_trim_not_isBlank h)

theorem isBlank_eq_false_of_isAlphanum {c : Char} (h : c.isAlphanum = true) :
    isBlank c = false := by
  delta Char.isAlphanum Char.isAlpha Char.isUpper Char.isLower Char.isDigit at h
  simp only [Bool.or_eq_true, Bool.and_eq_true, decide_eq_true_eq, UInt32.le_iff_toNat_le,
    ge_iff_le] at h
  change ((65 ≤ c.toNat ∧ c.toNat ≤ 90) ∨ (97 ≤ c.toNat ∧ c.toNat ≤ 122)) ∨
    (48 ≤ c.toNat ∧ c.toNat ≤ 57) at h
  simp only [isBlank, Bool.or_eq_false_iff, Bool.and_eq_false_iff, beq_eq_false_iff_ne,
    decide_eq_false_iff_not]
  omega

theorem isBlank_eq_false_of_isAlpha {c : Char} (h : c.isAlpha = true) : isBlank c = false :=
  isBlank_eq_false_of_isAlphanum (by rw [Char.isAlphanum, h]; rfl)

/-- That no character of a text is blank can be computed. -/
theorem isBlank_eq_false_of_all {text : Text} (h : (text.all fun c => !isBlank c) = true) :
    ∀ c ∈ text, isBlank c = false := by
  intro c hc
  simpa using List.all_eq_true.1 h c hc

theorem isBlank_of_mem_spaces {n : Nat} {c : Char} (h : c ∈ spaces n) : isBlank c = true := by
  rw [spaces] at h
  rw [List.eq_of_mem_replicate h]
  decide

/-- Blanks are taken from the end up to the last character that is none. -/
theorem trimEnd_append_cons {c : Char} (h : isBlank c = false) (before text : Text) :
    trimEnd (before ++ c :: text) = before ++ c :: trimEnd text := by
  induction before with
  | nil =>
    show dropEndWhile isBlank (c :: text) = c :: trimEnd text
    rw [dropEndWhile, trimEnd]
    cases dropEndWhile isBlank text with
    | nil => simp [h]
    | cons d rest => rfl
  | cons d before ih =>
    show dropEndWhile isBlank (d :: (before ++ c :: text)) = d :: (before ++ c :: trimEnd text)
    rw [trimEnd] at ih
    rw [dropEndWhile, ih]
    cases before <;> rfl

/-- At the end of a trimmed text there is nothing to be trimmed. -/
theorem trim_eq_trimStart {before after : Text} (h : trim (before ++ after) = before ++ after) :
    trim after = trimStart after := by
  have hstart : trim after = trim (trimStart after) := by
    conv_lhs => rw [← List.takeWhile_append_dropWhile (p := isBlank) (l := after)]
    exact trim_append_of_isBlank_left (fun c hc => List.mem_takeWhile_imp hc) _
  rw [hstart]
  refine trim_eq_self (fun c hc => head?_trimStart_not_isBlank hc) fun c hc => ?_
  obtain ⟨blanks, hblanks⟩ := trimStart_suffix after
  have hlast : (trim (before ++ after)).getLast? = some c := by
    rw [h, ← hblanks, ← List.append_assoc, List.getLast?_append, hc]
    rfl
  exact getLast?_trim_not_isBlank hlast

/-- Behind a trimmed text blanks are taken from the end alone. -/
theorem trim_append_of_trim_eq {before : Text} (h : trim before = before) (hne : before ≠ [])
    (behind : Text) : trim (before ++ behind) = before ++ trimEnd behind := by
  have hstart : trimStart (before ++ behind) = before ++ behind := by
    obtain ⟨c, rest, rfl⟩ := List.exists_cons_of_ne_nil hne
    have hhead : (trim (c :: rest)).head? = some c := by rw [h, List.head?_cons]
    exact trimStart_cons_of_not_isBlank (head?_trim_not_isBlank hhead) _
  have hlast : isBlank (before.getLast hne) = false := by
    have hend : (trim before).getLast? = some (before.getLast hne) := by
      rw [h, List.getLast?_eq_some_getLast hne]
    exact getLast?_trim_not_isBlank hend
  have hsplit : ∀ text, before ++ text = before.dropLast ++ before.getLast hne :: text := by
    intro text
    rw [List.append_cons, List.dropLast_concat_getLast]
  rw [trim, hstart, hsplit, trimEnd_append_cons hlast, ← hsplit]

theorem mem_head?_of_trimEnd {text : Text} : ∀ c ∈ (trimEnd text).head?, c ∈ text.head? := by
  intro c hc
  obtain ⟨rest, hrest⟩ := trimEnd_isPrefix text
  rw [← hrest, List.head?_append, Option.mem_def.1 hc]
  rfl

theorem head?_trimEnd_iff {c : Char} (h : isBlank c = false) {text : Text} :
    (trimEnd text).head? = some c ↔ text.head? = some c := by
  constructor
  · intro hhead
    obtain ⟨rest, hrest⟩ := trimEnd_isPrefix text
    rw [← hrest, List.head?_append, hhead]
    rfl
  · intro hhead
    obtain ⟨rest, rfl⟩ := List.head?_eq_some_iff.1 hhead
    rw [← List.nil_append (c :: rest), trimEnd_append_cons h]
    rfl

theorem trim_cons_of_not_isBlank {c : Char} (h : isBlank c = false) (text : Text) :
    trim (c :: text) = c :: trimEnd text := by
  rw [trim, trimStart_cons_of_not_isBlank h]
  exact trimEnd_append_cons h [] text

/-- A text that begins with a character that is not blank keeps it when it is trimmed. -/
theorem head?_trim_cons {c : Char} (h : isBlank c = false) (text : Text) :
    (trim (c :: text)).head? = some c := by
  rw [trim_cons_of_not_isBlank h, List.head?_cons]

/-- Indentation does not show after trimming. -/
theorem trim_spaces_append (n : Nat) (text : Text) : trim (spaces n ++ text) = trim text :=
  trim_append_of_isBlank_left (fun _ h => isBlank_of_mem_spaces h) text

end SlimTemplate.Text
