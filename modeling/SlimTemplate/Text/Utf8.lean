import SlimTemplate.Text.Basic

/-!
# Reading UTF-8

A sequence of bytes is read as text, or refused with the place where it stops being UTF-8. The
refusal also tells how many bytes can be skipped, or that the bytes end inside a character.

## Main definitions

* `Text.Utf8Error`: where and how bytes fail to be UTF-8.
* `Text.decodeUtf8`: the text that bytes spell.
-/

namespace SlimTemplate.Text

/-- Why bytes are not UTF-8. The index counts the bytes of the well-formed text before the
fault. -/
inductive Utf8Error where
  /-- `length` bytes from `index` on begin no character. -/
  | malformed (index length : Nat)
  /-- The bytes end inside the character that starts at `index`. -/
  | incomplete (index : Nat)
  deriving DecidableEq, Repr

namespace Utf8Error

/-- The wording of the fault. -/
def message : Utf8Error → Text
  | malformed index length =>
    "invalid utf-8 sequence of ".toList ++ ofNat length ++ " bytes from index ".toList ++
      ofNat index
  | incomplete index => "incomplete utf-8 byte sequence from index ".toList ++ ofNat index

end Utf8Error

/-- The leading byte of a character: how many bytes follow, the bits it contributes, and the
range that its second byte must lie in. -/
structure Lead where
  /-- The number of bytes that follow. -/
  trailing : Nat
  /-- The bits of the code point that the byte holds. -/
  bits : Nat
  low : Nat
  high : Nat

/-- The leading bytes of characters of two to four bytes. The range of the second byte leaves out
overlong forms, surrogates and code points beyond the last plane. -/
def Lead.ofByte? (b : Nat) : Option Lead :=
  if 0xC2 ≤ b && b ≤ 0xDF then some ⟨1, b - 0xC0, 0x80, 0xBF⟩
  else if b == 0xE0 then some ⟨2, 0, 0xA0, 0xBF⟩
  else if b == 0xED then some ⟨2, 0xD, 0x80, 0x9F⟩
  else if 0xE1 ≤ b && b ≤ 0xEF then some ⟨2, b - 0xE0, 0x80, 0xBF⟩
  else if b == 0xF0 then some ⟨3, 0, 0x90, 0xBF⟩
  else if 0xF1 ≤ b && b ≤ 0xF3 then some ⟨3, b - 0xF0, 0x80, 0xBF⟩
  else if b == 0xF4 then some ⟨3, 4, 0x80, 0x8F⟩
  else none

/-- A character of which some bytes are still owed. -/
structure OpenChar where
  /-- The index of its first byte. -/
  start : Nat
  /-- The number of its bytes read so far. -/
  read : Nat
  /-- The number of bytes still owed. -/
  owed : Nat
  /-- The bits of the code point read so far. -/
  bits : Nat
  low : Nat
  high : Nat

/-- The text of the bytes from `index` on, given the character that they continue. -/
def decodeFrom (index : Nat) (opened : Option OpenChar) : List UInt8 → Except Utf8Error Text
  | [] =>
    match opened with
    | none => .ok []
    | some char => .error (.incomplete char.start)
  | byte :: bytes =>
    let b := byte.toNat
    match opened with
    | none =>
      if b < 0x80 then (decodeFrom (index + 1) none bytes).map (Char.ofNat b :: ·)
      else
        match Lead.ofByte? b with
        | some lead =>
          decodeFrom (index + 1)
            (some ⟨index, 1, lead.trailing, lead.bits, lead.low, lead.high⟩) bytes
        | none => .error (.malformed index 1)
    | some char =>
      if char.low ≤ b && b ≤ char.high then
        let bits := char.bits * 64 + (b - 0x80)
        if char.owed ≤ 1 then (decodeFrom (index + 1) none bytes).map (Char.ofNat bits :: ·)
        else
          decodeFrom (index + 1)
            (some ⟨char.start, char.read + 1, char.owed - 1, bits, 0x80, 0xBF⟩) bytes
      else .error (.malformed char.start char.read)

/-- The text that bytes spell in UTF-8. -/
def decodeUtf8 (bytes : List UInt8) : Except Utf8Error Text :=
  decodeFrom 0 none bytes

end SlimTemplate.Text
