import SlimTemplate.Proofs.Text.Blank
import SlimTemplate.Text.Number

/-!
# Numbers written and read

A number in decimal digits is read as itself if it fits into a machine word.

## Main statements

* `Text.readSize?_ofNat`: a size that is written is read back.
* `Text.isBlank_eq_false_of_isDecimalDigit`: digits are no blanks.
-/

namespace SlimTemplate.Text

theorem isDigit_of_mem_ofNat {n : Nat} {c : Char} (h : c ∈ ofNat n) : c.isDigit = true :=
  Nat.isDigit_of_mem_toDigits (by decide) (by decide) h

theorem digitsValue_ofNat (n : Nat) : digitsValue (ofNat n) = n := by
  have hfold : ∀ (digits : Text) (m : Nat),
      digits.foldl (fun n c => n * 10 + (c.toNat - 0x30)) m = Nat.ofDigitChars 10 digits m := by
    intro digits
    induction digits with
    | nil => exact fun m => rfl
    | cons c digits ih =>
      intro m
      rw [List.foldl_cons, ih, Nat.ofDigitChars_cons, Nat.mul_comm]
      rfl
  rw [digitsValue, hfold]
  exact Nat.ofDigitChars_ten_toDigits

/-- A size that is written is read back. -/
theorem readSize?_ofNat {n : Nat} (h : n ≤ maxSize) : readSize? (ofNat n) = some n := by
  have hne : (ofNat n).isEmpty = false := by
    rw [List.isEmpty_eq_false_iff]
    exact Nat.toDigits_ne_nil
  have hall : (ofNat n).all Char.isDigit = true := by
    rw [List.all_eq_true]
    exact fun c hc => isDigit_of_mem_ofNat hc
  have hvalue : ¬digitsValue (ofNat n) > maxSize := by
    rw [digitsValue_ofNat]
    omega
  rw [readSize?, hne, hall, digitsValue_ofNat] at *
  simp [hvalue]

theorem isDecimalDigit_of_isDigit {c : Char} (h : c.isDigit = true) : isDecimalDigit c = true := by
  have hlt : c.toNat < 0x80 := by
    simp only [Char.isDigit, Bool.and_eq_true, decide_eq_true_eq] at h
    have hle := UInt32.le_iff_toNat_le.1 h.2
    change c.toNat ≤ 57 at hle
    omega
  rw [isDecimalDigit, if_pos hlt, h]

/-- Blanks are no digits, in no script. -/
theorem isBlank_eq_false_of_isDecimalDigit {c : Char} (h : isDecimalDigit c = true) :
    isBlank c = false := by
  have hbeyond : ∀ n ∈ [0x85, 0xA0, 0x1680, 0x2028, 0x2029, 0x202F, 0x205F, 0x3000] ++
      List.range' 0x2000 11, inRanges digitRanges n = false := by
    decide
  by_cases hascii : c.toNat < 0x80
  · rw [isDecimalDigit, if_pos hascii] at h
    exact isBlank_eq_false_of_isAlphanum (by rw [Char.isAlphanum, h, Bool.or_true])
  · rw [isDecimalDigit, if_neg hascii] at h
    by_contra hblank
    refine Bool.false_ne_true ((hbeyond c.toNat ?_).symm.trans h)
    simp only [isBlank, Bool.or_eq_false_iff, Bool.and_eq_false_iff, beq_eq_false_iff_ne,
      decide_eq_false_iff_not] at hblank
    simp only [List.mem_append, List.mem_cons, List.not_mem_nil, or_false, List.mem_range'_1]
    omega

end SlimTemplate.Text
