import SlimTemplate.Proofs.Text.Blank
import SlimTemplate.Proofs.Text.Utf8
import SlimTemplate.Text.Lowercase

/-!
# ASCII among the classes of characters

The classes of Unicode agree with those of ASCII on its 128 characters, so what is asked of one such
character can be computed for all of them. Lower case is that of ASCII on a text of ASCII.

## Main statements

* `Text.forall_isAscii`: what holds of the first 128 characters holds of every character of ASCII.
* `Text.isWordChar_of_isAlphanum`, `Text.isWordChar_eq_false_of_isBlank`: letters and digits make
  words, and blanks do not.
* `Text.toLower_eq_toAsciiLower`: the lower case of a text of ASCII.
-/

namespace SlimTemplate.Text

variable {c : Char} {text : Text}

theorem isAscii_of_isAlphanum (h : c.isAlphanum = true) : IsAscii c := by
  delta Char.isAlphanum Char.isAlpha Char.isUpper Char.isLower Char.isDigit at h
  simp only [Bool.or_eq_true, Bool.and_eq_true, decide_eq_true_eq, UInt32.le_iff_toNat_le,
    ge_iff_le] at h
  change ((65 ≤ c.toNat ∧ c.toNat ≤ 90) ∨ (97 ≤ c.toNat ∧ c.toNat ≤ 122)) ∨
    (48 ≤ c.toNat ∧ c.toNat ≤ 57) at h
  unfold IsAscii
  omega

/-- What holds of the first 128 characters, which can be computed, holds of ASCII. -/
theorem forall_isAscii {P : Char → Prop} (h : ∀ n < 128, P (Char.ofNat n)) (hc : IsAscii c) :
    P c := by
  have hnat := h c.toNat hc
  rwa [Char.ofNat_toNat] at hnat

/-! ## Word characters -/

theorem isWordChar_of_isAlphanum (h : c.isAlphanum = true) : isWordChar c = true := by
  have hascii : c.toNat < 0x80 := isAscii_of_isAlphanum h
  rw [isWordChar, if_pos hascii, h]
  rfl

/-- No blank is part of a word. -/
theorem isWordChar_eq_false_of_isBlank (h : isBlank c = true) : isWordChar c = false := by
  have hbeyond : ∀ n ∈ [0x85, 0xA0, 0x1680, 0x2000, 0x2001, 0x2002, 0x2003, 0x2004, 0x2005, 0x2006,
      0x2007, 0x2008, 0x2009, 0x200A, 0x2028, 0x2029, 0x202F, 0x205F, 0x3000],
      inRanges wordRanges n = false := by
    decide +kernel
  rw [isWordChar]
  split
  · rw [← Bool.not_eq_true, Bool.or_eq_true, beq_iff_eq]
    rintro (halphanum | rfl)
    · exact Bool.false_ne_true ((isBlank_eq_false_of_isAlphanum halphanum).symm.trans h)
    · exact absurd h (by decide)
  · next hascii =>
    refine hbeyond c.toNat ?_
    simp only [isBlank, Bool.or_eq_true, Bool.and_eq_true, decide_eq_true_eq, beq_iff_eq] at h
    simp only [List.mem_cons, List.not_mem_nil, or_false]
    omega

/-! ## Lower case -/

theorem toLower_eq_self (h : c.isUpper = false) : c.toLower = c := by
  delta Char.isUpper at h
  delta Char.toLower
  rw [dif_neg]
  simpa using h

theorem isLower_toLower (h : c.isUpper = true) : c.toLower.isLower = true := by
  have hrange : c.val ≥ 'A'.val ∧ c.val ≤ 'Z'.val := by
    delta Char.isUpper at h
    simpa using h
  have hA : 'A'.val.toNat = 65 := rfl
  have hZ : 'Z'.val.toNat = 90 := rfl
  have ha : 'a'.val.toNat = 97 := rfl
  have hz : 'z'.val.toNat = 122 := rfl
  delta Char.toLower Char.isLower
  rw [dif_pos hrange]
  simp only [ge_iff_le, UInt32.le_iff_toNat_le, Bool.and_eq_true, decide_eq_true_eq] at hrange ⊢
  have hadd : (c.val + ('a'.val - 'A'.val)).toNat = c.val.toNat + 32 := by
    rw [UInt32.toNat_add]
    have hshift : ('a'.val - 'A'.val).toNat = 32 := rfl
    omega
  omega

theorem isAlpha_toLower (h : c.isAlpha = true) : c.toLower.isAlpha = true := by
  cases hupper : c.isUpper with
  | true =>
    delta Char.isAlpha
    rw [isLower_toLower hupper, Bool.or_true]
  | false => rwa [toLower_eq_self hupper]

/-- Only small letters come from capitals. -/
theorem eq_of_toLower_eq {d : Char} (hd : d.isLower = false) (h : c.toLower = d) : c = d := by
  cases hupper : c.isUpper with
  | true =>
    have hlower := isLower_toLower hupper
    rw [h, hd] at hlower
    cases hlower
  | false => rwa [toLower_eq_self hupper] at h

theorem toLower_toLower (hc : IsAscii c) : c.toLower.toLower = c.toLower :=
  forall_isAscii (P := fun d => d.toLower.toLower = d.toLower) (by decide) hc

theorem toLowerAfter_eq_toAsciiLower (h : ∀ c ∈ text, IsAscii c) (before : Text) :
    toLowerAfter before text = toAsciiLower text := by
  induction text generalizing before with
  | nil => rfl
  | cons c text ih =>
    obtain ⟨hc, htext⟩ := List.forall_mem_cons.1 h
    have hascii : c.toNat < 0x80 := hc
    -- The two characters with rules of their own are beyond ASCII.
    have hdot : c ≠ '\u0130' := by
      rintro rfl
      exact absurd hc (by decide)
    have hsigma : c ≠ 'Σ' := by
      rintro rfl
      exact absurd hc (by decide)
    rw [toLowerAfter, if_neg (by simpa using hdot), if_neg (by simpa using hsigma), lowerChar,
      if_pos hascii, ih htext]
    rfl

/-- In a text of ASCII only its capitals change. -/
theorem toLower_eq_toAsciiLower (h : ∀ c ∈ text, IsAscii c) : toLower text = toAsciiLower text :=
  toLowerAfter_eq_toAsciiLower h []

theorem toAsciiLower_toAsciiLower (h : ∀ c ∈ text, IsAscii c) :
    toAsciiLower (toAsciiLower text) = toAsciiLower text := by
  rw [toAsciiLower, toAsciiLower, List.map_map]
  exact List.map_congr_left fun c hc => toLower_toLower (h c hc)

/-- A text of ASCII without capitals is in lower case. -/
theorem toAsciiLower_eq_self (h : ∀ c ∈ text, IsAscii c) (hsmall : ∀ c ∈ text, c.isUpper = false) :
    toAsciiLower text = text := by
  have hself : ∀ c ∈ text, c.toLower = c := fun c hc =>
    forall_isAscii (P := fun d => d.isUpper = false → d.toLower = d) (by decide) (h c hc)
      (hsmall c hc)
  rw [toAsciiLower, List.map_congr_left hself, List.map_id']

end SlimTemplate.Text
