import SlimTemplate.Proofs.Text.Search

/-!
# The bytes of a text

A text is stored as bytes in UTF-8, where an ASCII character is one byte below 128 and every byte
of any other character is 128 or more. So a search for ASCII bytes finds only characters, and the
offsets at which it finds them are boundaries between characters.

## Main definitions

* `Text.utf8`, `Text.size`: the bytes of a text and their number.
* `Text.slice?`: the text between two byte offsets, if both are boundaries between characters.
* `Text.onAscii`: a test of characters on bytes.
* `Text.findBytes?`: the offset at which some bytes are found.

## Main statements

* `Text.splitAtByte?_eq_some_iff`, `Text.slice?_eq_some_iff`: boundaries between characters, and
  what is between two of them.
* `Text.isPrefixOf_utf8`, `Text.findBytes?_utf8`: ASCII bytes are found where the characters are.
-/

namespace SlimTemplate.Text

/-! ## Offsets -/

/-- The bytes of a text. -/
def utf8 (text : Text) : List UInt8 :=
  text.flatMap String.utf8EncodeChar

/-- The number of bytes of a text. -/
def size (text : Text) : Nat :=
  (utf8 text).length

theorem utf8_cons (c : Char) (text : Text) :
    utf8 (c :: text) = String.utf8EncodeChar c ++ utf8 text :=
  List.flatMap_cons

theorem utf8_append (a b : Text) : utf8 (a ++ b) = utf8 a ++ utf8 b :=
  List.flatMap_append

theorem size_nil : size [] = 0 :=
  rfl

theorem size_cons (c : Char) (text : Text) : size (c :: text) = c.utf8Size + size text := by
  rw [size, utf8_cons, List.length_append, String.length_utf8EncodeChar, size]

theorem size_append (a b : Text) : size (a ++ b) = size a + size b := by
  rw [size, utf8_append, List.length_append, size, size]

/-- The text before a byte offset and the text from there on. There is none behind the end, and
none inside of a character. -/
def splitAtByte? : Nat → Text → Option (Text × Text)
  | 0, text => some ([], text)
  | _ + 1, [] => none
  | n + 1, c :: text =>
    if c.utf8Size ≤ n + 1 then
      (splitAtByte? (n + 1 - c.utf8Size) text).map fun (before, after) => (c :: before, after)
    else none

/-- A text is split at a byte offset exactly at a boundary between characters. -/
theorem splitAtByte?_eq_some_iff {n : Nat} {text before after : Text} :
    splitAtByte? n text = some (before, after) ↔ text = before ++ after ∧ size before = n := by
  fun_induction splitAtByte? n text generalizing before with
  | case1 text =>
    constructor
    · intro h
      obtain ⟨rfl, rfl⟩ := Prod.mk.inj (Option.some.inj h)
      exact ⟨rfl, size_nil⟩
    · rintro ⟨rfl, hsize⟩
      cases before with
      | nil => rfl
      | cons c before =>
        rw [size_cons] at hsize
        have := c.utf8Size_pos
        omega
  | case2 n =>
    refine ⟨fun h => absurd h (by simp), fun ⟨htext, hsize⟩ => ?_⟩
    obtain ⟨rfl, -⟩ := List.append_eq_nil_iff.1 htext.symm
    rw [size_nil] at hsize
    omega
  | case3 n c text hle ih =>
    rw [Option.map_eq_some_iff]
    constructor
    · rintro ⟨⟨more, after'⟩, hsplit, heq⟩
      obtain ⟨rfl, rfl⟩ := Prod.mk.inj heq
      obtain ⟨rfl, hsize⟩ := ih.1 hsplit
      refine ⟨rfl, ?_⟩
      rw [size_cons]
      omega
    · rintro ⟨htext, hsize⟩
      cases before with
      | nil =>
        rw [size_nil] at hsize
        omega
      | cons d more =>
        obtain ⟨rfl, rfl⟩ := List.cons.inj htext
        rw [size_cons] at hsize
        exact ⟨(more, after), ih.2 ⟨rfl, by omega⟩, rfl⟩
  | case4 n c text hle =>
    refine ⟨fun h => absurd h (by simp), fun ⟨htext, hsize⟩ => ?_⟩
    cases before with
    | nil =>
      rw [size_nil] at hsize
      omega
    | cons d more =>
      obtain ⟨rfl, rfl⟩ := List.cons.inj htext
      rw [size_cons] at hsize
      omega

/-- The text between two byte offsets. There is none if they are in the wrong order, behind the
end or inside of a character. -/
def slice? (text : Text) (start stop : Nat) : Option Text :=
  if start ≤ stop then do
    let (_, rest) ← splitAtByte? start text
    let (part, _) ← splitAtByte? (stop - start) rest
    return part
  else none

theorem slice?_eq_some_iff {text part : Text} {start stop : Nat} :
    slice? text start stop = some part ↔ ∃ before after,
      text = before ++ (part ++ after) ∧ size before = start ∧ size before + size part = stop := by
  unfold slice?
  constructor
  · intro h
    split at h
    · next hle =>
      obtain ⟨⟨before, rest⟩, hstart, h⟩ := Option.bind_eq_some_iff.1 h
      obtain ⟨⟨part, after⟩, hstop, h⟩ := Option.bind_eq_some_iff.1 h
      cases h
      obtain ⟨rfl, rfl⟩ := splitAtByte?_eq_some_iff.1 hstart
      obtain ⟨rfl, hsize⟩ := splitAtByte?_eq_some_iff.1 hstop
      exact ⟨before, after, rfl, rfl, by omega⟩
    · cases h
  · rintro ⟨before, after, rfl, rfl, rfl⟩
    have hstart : splitAtByte? (size before) (before ++ (part ++ after)) =
        some (before, part ++ after) :=
      splitAtByte?_eq_some_iff.2 ⟨rfl, rfl⟩
    have hstop : splitAtByte? (size before + size part - size before) (part ++ after) =
        some (part, after) :=
      splitAtByte?_eq_some_iff.2 ⟨rfl, by omega⟩
    rw [if_pos (Nat.le_add_right _ _), hstart]
    simp only [Option.bind_eq_bind, Option.bind_some, hstop]
    rfl

/-! ## ASCII -/

/-- Whether a character is one of ASCII. -/
def IsAscii (c : Char) : Prop :=
  c.toNat < 128

instance (c : Char) : Decidable (IsAscii c) :=
  inferInstanceAs (Decidable (c.toNat < 128))

theorem utf8EncodeChar_of_isAscii {c : Char} (h : IsAscii c) :
    String.utf8EncodeChar c = [c.toUInt8] := by
  have hle : c.val.toNat ≤ 0x7f := Nat.le_of_lt_succ h
  simp only [String.utf8EncodeChar, hle, if_true]
  rfl

theorem utf8_cons_of_isAscii {c : Char} (h : IsAscii c) (text : Text) :
    utf8 (c :: text) = c.toUInt8 :: utf8 text := by
  rw [utf8_cons, utf8EncodeChar_of_isAscii h, List.singleton_append]

theorem utf8Size_of_isAscii {c : Char} (h : IsAscii c) : c.utf8Size = 1 := by
  rw [← String.length_utf8EncodeChar, utf8EncodeChar_of_isAscii h, List.length_singleton]

theorem size_cons_of_isAscii {c : Char} (h : IsAscii c) (text : Text) :
    size (c :: text) = 1 + size text := by
  rw [size_cons, utf8Size_of_isAscii h]

theorem toUInt8_toNat {c : Char} (h : IsAscii c) : c.toUInt8.toNat = c.toNat := by
  show c.toNat % 256 = c.toNat
  exact Nat.mod_eq_of_lt (Nat.lt_trans h (by decide))

theorem toUInt8_inj {c d : Char} (hc : IsAscii c) (hd : IsAscii d) :
    c.toUInt8 = d.toUInt8 ↔ c = d := by
  rw [← UInt8.toNat_inj, toUInt8_toNat hc, toUInt8_toNat hd, Char.toNat_inj]

/-- A byte of a character that is not one of ASCII is no byte of one that is. -/
theorem le_of_mem_utf8EncodeChar {c : Char} (h : ¬IsAscii c) {b : UInt8}
    (hb : b ∈ String.utf8EncodeChar c) : 128 ≤ b.toNat := by
  have hlt : ¬c.val.toNat ≤ 0x7f := fun hle => h (Nat.lt_succ_of_le hle)
  simp only [String.utf8EncodeChar, hlt, if_false] at hb
  split at hb
  · simp only [List.mem_cons, List.not_mem_nil, or_false] at hb
    rcases hb with rfl | rfl <;> simp only [UInt8.toNat_ofNat'] <;> omega
  split at hb
  · simp only [List.mem_cons, List.not_mem_nil, or_false] at hb
    rcases hb with rfl | rfl | rfl <;> simp only [UInt8.toNat_ofNat'] <;> omega
  · simp only [List.mem_cons, List.not_mem_nil, or_false] at hb
    rcases hb with rfl | rfl | rfl | rfl <;> simp only [UInt8.toNat_ofNat'] <;> omega

/-- Whether a byte is that of a character of ASCII that passes a test. -/
def onAscii (test : Char → Bool) (b : UInt8) : Bool :=
  decide (b.toNat < 128) && test (Char.ofNat b.toNat)

theorem onAscii_toUInt8 (test : Char → Bool) {c : Char} (hc : IsAscii c) :
    onAscii test c.toUInt8 = test c := by
  have hlt : c.toNat < 128 := hc
  rw [onAscii, toUInt8_toNat hc, decide_eq_true hlt, Bool.true_and, Char.ofNat_toNat]

theorem onAscii_of_le (test : Char → Bool) {b : UInt8} (hb : 128 ≤ b.toNat) :
    onAscii test b = false := by
  rw [onAscii, decide_eq_false (Nat.not_lt.2 hb), Bool.false_and]

theorem ne_of_isAscii {c : Char} (hc : IsAscii c) {b : UInt8} (hb : 128 ≤ b.toNat) :
    c.toUInt8 ≠ b := by
  rintro rfl
  rw [toUInt8_toNat hc] at hb
  exact absurd hc (Nat.not_lt.2 hb)

/-- The first byte of a character decides whether it is a given one of ASCII. -/
theorem exists_utf8_cons (c : Char) (text : Text) :
    ∃ b bytes, utf8 (c :: text) = b :: bytes ∧ (∀ d, IsAscii d → (b = d.toUInt8 ↔ c = d)) ∧
      ∀ test : Char → Bool, (∀ d, test d = true → IsAscii d) → onAscii test b = test c := by
  by_cases hc : IsAscii c
  · exact ⟨c.toUInt8, utf8 text, utf8_cons_of_isAscii hc text, fun d => toUInt8_inj hc,
      fun test _ => onAscii_toUInt8 test hc⟩
  · obtain ⟨b, bytes, hbytes⟩ := List.exists_cons_of_ne_nil (String.utf8EncodeChar_ne_nil (c := c))
    have hb : 128 ≤ b.toNat := le_of_mem_utf8EncodeChar hc (hbytes ▸ List.mem_cons_self)
    refine ⟨b, bytes ++ utf8 text, ?_, fun d hd => ?_, fun test htest => ?_⟩
    · rw [utf8_cons, hbytes, List.cons_append]
    · refine ⟨fun heq => absurd heq.symm (ne_of_isAscii hd hb), fun heq => absurd hd (heq ▸ hc)⟩
    · rw [onAscii_of_le test hb]
      exact (Bool.not_eq_true _ ▸ mt (htest c) hc).symm

/-! ## Finding bytes -/

/-- ASCII bytes stand at the start of the bytes of a text if the characters do. -/
theorem isPrefixOf_utf8 {part : Text} (hpart : ∀ c ∈ part, IsAscii c) (text : Text) :
    (utf8 part).isPrefixOf (utf8 text) = hasPrefix part text := by
  induction part generalizing text with
  | nil => cases text <;> rfl
  | cons p part ih =>
    obtain ⟨hp, hpart⟩ := List.forall_mem_cons.1 hpart
    rw [utf8_cons, utf8EncodeChar_of_isAscii hp]
    cases text with
    | nil => rfl
    | cons c text =>
      rw [utf8_cons, hasPrefix, dropPrefix?]
      by_cases hc : IsAscii c
      · rw [utf8EncodeChar_of_isAscii hc, List.singleton_append, List.singleton_append,
          List.isPrefixOf_cons_cons, ih hpart, hasPrefix]
        by_cases heq : p = c
        · simp [heq]
        · simp [heq, (toUInt8_inj hp hc).not.2 heq]
      · have hne : p ≠ c := by
          rintro rfl
          exact hc hp
        obtain ⟨b, bytes, hbytes⟩ :=
          List.exists_cons_of_ne_nil (String.utf8EncodeChar_ne_nil (c := c))
        have hb : p.toUInt8 ≠ b :=
          ne_of_isAscii hp (le_of_mem_utf8EncodeChar hc (hbytes ▸ List.mem_cons_self))
        rw [hbytes, List.singleton_append, List.cons_append, List.isPrefixOf_cons_cons,
          beq_false_of_ne hb, Bool.false_and, if_neg hne]
        rfl

/-- The offset of the first occurrence of some bytes. -/
def findBytes? (part : List UInt8) : List UInt8 → Option Nat
  | [] => none
  | b :: bytes =>
    if part.isPrefixOf (b :: bytes) then some 0 else (findBytes? part bytes).map (· + 1)

/-- Bytes of characters that are not ones of ASCII hold no ASCII bytes. -/
theorem findBytes?_append {p : Char} (hp : IsAscii p) (part : List UInt8) {bytes : List UInt8}
    (hbytes : ∀ b ∈ bytes, 128 ≤ b.toNat) (rest : List UInt8) :
    findBytes? (p.toUInt8 :: part) (bytes ++ rest) =
      (findBytes? (p.toUInt8 :: part) rest).map (bytes.length + ·) := by
  induction bytes with
  | nil => simp
  | cons b bytes ih =>
    obtain ⟨hb, hbytes⟩ := List.forall_mem_cons.1 hbytes
    have hne := ne_of_isAscii hp hb
    rw [List.cons_append, findBytes?, List.isPrefixOf_cons_cons, beq_false_of_ne hne,
      Bool.false_and, if_neg Bool.false_ne_true, ih hbytes, Option.map_map, List.length_cons]
    congr 1
    funext n
    simp only [Function.comp_apply]
    omega

/-- ASCII bytes are found in the bytes of a text where the characters are found in it. -/
theorem findBytes?_utf8 {p : Char} {part : Text} (hpart : ∀ c ∈ p :: part, IsAscii c)
    (text : Text) :
    findBytes? (utf8 (p :: part)) (utf8 text) =
      (cutAt? (p :: part) text).map fun (before, _) => size before := by
  have hp := hpart p List.mem_cons_self
  induction text with
  | nil => rfl
  | cons c text ih =>
    rw [cutAt?]
    by_cases hc : IsAscii c
    · have hbytes := utf8_cons_of_isAscii hc text
      rw [hbytes, findBytes?, ← hbytes, isPrefixOf_utf8 hpart, hasPrefix, ih]
      cases dropPrefix? (p :: part) (c :: text) with
      | some rest => rfl
      | none =>
        simp [Option.map_map, Function.comp_def, size_cons_of_isAscii hc, Nat.add_comm]
    · have hne : p ≠ c := by
        rintro rfl
        exact hc hp
      rw [utf8_cons_of_isAscii hp] at ih ⊢
      rw [utf8_cons, findBytes?_append hp _ fun b => le_of_mem_utf8EncodeChar hc, ih, dropPrefix?,
        if_neg hne]
      simp [Option.map_map, Function.comp_def, size_cons]

end SlimTemplate.Text
