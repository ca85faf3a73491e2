import SlimTemplate.Directive.Pass
import SlimTemplate.Proofs.Directive.SetAside
import SlimTemplate.Proofs.Text.Utf8

/-!
# Directives set aside over bytes

Where a text is stored in UTF-8, the directives inside of tags are looked for among its bytes. What
is copied and what is set aside is cut out of the text between two byte offsets, which fails where
an offset is inside of a character. Every byte that is looked for is one of ASCII, so this happens
nowhere, and the outcome is that of reading the text character by character.

## Main definitions

* `Directive.scanBytes?`: the bytes read one by one.
* `Directive.setAsideBytes?`: the directives inside of tags set aside, unless a cut fails.
* `Directive.BytePlace.Stands`: the same place among bytes and among characters.

## Main statements

* `Directive.scanBytes?_utf8_cons`: one character keeps the places the same.
* `Directive.scanBytes?_utf8`: what is left to read comes out as among characters.
* `Directive.setAsideBytes?_eq`: no cut fails.
-/

namespace SlimTemplate.Directive

open Text (IsAscii)

/-! ## Reading bytes -/

/-- Where bytes are read: in a tag, the quote that is open and the byte before. -/
inductive BytePlace where
  | outside
  | inTag (quote : Option UInt8) (previous : UInt8)

/-- Whether a byte is that of a letter of ASCII. -/
def isAlphaByte (b : UInt8) : Bool :=
  (65 ≤ b.toNat && b.toNat ≤ 90) || (97 ≤ b.toNat && b.toNat ≤ 122)

/-- Whether the bytes after a `<` make it the start of a tag. -/
def opensTagBytes : List UInt8 → Bool
  | [] => false
  | b :: _ => isAlphaByte b || b = '/'.toUInt8

namespace BytePlace

/-- The place after one more byte. -/
def next (b : UInt8) (bytes : List UInt8) : BytePlace → BytePlace
  | outside => if b = '<'.toUInt8 && opensTagBytes bytes then inTag none b else outside
  | inTag (some q) _ => inTag (if b = q then none else some q) b
  | inTag none previous =>
    if (b = '"'.toUInt8 || b = '\''.toUInt8) && previous = '='.toUInt8 then inTag (some b) b
    else if b = '>'.toUInt8 then outside
    else inTag none b

/-- Whether a directive starts there. Outside of tags none is looked for. -/
def startsDirective (bytes : List UInt8) : BytePlace → Bool
  | outside => false
  | inTag _ _ => (Text.utf8 "<%".toList).isPrefixOf bytes

/-- The place after a directive, whose last byte is that of `>`. -/
def pastDirective : BytePlace → BytePlace
  | outside => outside
  | inTag quote _ => inTag quote '>'.toUInt8

end BytePlace

/-- What has been written while bytes are read, the directives set aside, and the offset up to which
the text has been copied. -/
structure ByteDraft where
  written : Text
  stash : List Text
  copied : Nat

namespace ByteDraft

/-- Copies the text up to a directive, and sets the directive aside. -/
def protect? (draft : ByteDraft) (source : Text) (start stop : Nat) : Option ByteDraft := do
  let before ← Text.slice? source draft.copied start
  let directive ← Text.slice? source start stop
  return ⟨draft.written ++ before ++ placeholder draft.stash.length, draft.stash ++ [directive],
    stop⟩

/-- Copies the rest of the text. -/
def finish? (draft : ByteDraft) (source : Text) : Option Draft := do
  let rest ← Text.slice? source draft.copied (Text.size source)
  return ⟨draft.written ++ rest, draft.stash⟩

end ByteDraft

/-- The bytes from an offset on. A directive that is left open ends the search. -/
def scanBytes? (source : Text) (draft : ByteDraft) (offset : Nat) (place : BytePlace) :
    List UInt8 → Option Draft
  | [] => draft.finish? source
  | b :: bytes =>
    if place.startsDirective (b :: bytes) then
      match Text.findBytes? (Text.utf8 "%>".toList) (bytes.drop 1) with
      | none => draft.finish? source
      | some n => do
        let stop := offset + 2 + n + 2
        let draft ← draft.protect? source offset stop
        scanBytes? source draft stop place.pastDirective (bytes.drop (n + 3))
    else scanBytes? source draft (offset + 1) (place.next b bytes) bytes
termination_by bytes => bytes.length
decreasing_by
  · rw [List.length_drop, List.length_cons]
    omega
  · simp

/-- A draft with the directives inside of tags set aside, as they are found among the bytes of its
text. There is none if a cut falls inside of a character. -/
def setAsideBytes? (draft : Draft) : Option Draft :=
  scanBytes? draft.text ⟨[], draft.stash, 0⟩ 0 .outside (Text.utf8 draft.text)

/-! ## Places -/

/-- The same place among bytes and among characters. -/
inductive BytePlace.Stands : BytePlace → Place → Prop
  | outside : Stands .outside .outside
  | inTag {quote : Option Char} {afterEquals : Bool} {previous : UInt8}
      (hquote : ∀ q ∈ quote, IsAscii q) (hequals : afterEquals = decide (previous = '='.toUInt8)) :
      Stands (.inTag (quote.map Char.toUInt8) previous) (.inTag quote afterEquals)

theorem isAlpha_iff {c : Char} :
    c.isAlpha = true ↔ (65 ≤ c.toNat ∧ c.toNat ≤ 90) ∨ (97 ≤ c.toNat ∧ c.toNat ≤ 122) := by
  show (decide ('A'.val ≤ c.val ∧ c.val ≤ 'Z'.val) ||
    (decide ('a'.val ≤ c.val) && decide (c.val ≤ 'z'.val))) = true ↔ _
  simp only [Bool.or_eq_true, Bool.and_eq_true, decide_eq_true_eq, UInt32.le_iff_toNat_le]
  rfl

theorem isAlphaByte_toUInt8 {c : Char} (hc : IsAscii c) : isAlphaByte c.toUInt8 = c.isAlpha := by
  rw [Bool.eq_iff_iff, isAlpha_iff, isAlphaByte, Text.toUInt8_toNat hc]
  simp only [Bool.or_eq_true, Bool.and_eq_true, decide_eq_true_eq]

/-- No character that is not one of ASCII has a byte of a letter or of a slash. -/
theorem opensTagBytes_cons_of_le {b : UInt8} (hb : 128 ≤ b.toNat) (bytes : List UInt8) :
    opensTagBytes (b :: bytes) = false := by
  have hslash : b ≠ '/'.toUInt8 := (Text.ne_of_isAscii (by decide) hb).symm
  have halpha : isAlphaByte b = false := by
    rw [isAlphaByte, Bool.eq_false_iff]
    intro h
    simp only [Bool.or_eq_true, Bool.and_eq_true, decide_eq_true_eq] at h
    omega
  rw [opensTagBytes, halpha, decide_eq_false hslash, Bool.or_false]

theorem opensTagBytes_utf8 (text : Text) : opensTagBytes (Text.utf8 text) = opensTag text := by
  cases text with
  | nil => rfl
  | cons c text =>
    rw [Text.utf8_cons, opensTag]
    by_cases hc : IsAscii c
    · have hslash : c.toUInt8 = '/'.toUInt8 ↔ c = '/' := Text.toUInt8_inj hc (by decide)
      rw [Text.utf8EncodeChar_of_isAscii hc, List.singleton_append, opensTagBytes,
        isAlphaByte_toUInt8 hc, decide_eq_decide.2 hslash]
    · obtain ⟨b, bytes, hbytes⟩ :=
        List.exists_cons_of_ne_nil (String.utf8EncodeChar_ne_nil (c := c))
      have hb : 128 ≤ b.toNat := Text.le_of_mem_utf8EncodeChar hc (hbytes ▸ List.mem_cons_self)
      have hslash : c ≠ '/' := by
        rintro rfl
        exact hc (by decide)
      have halpha : c.isAlpha = false := by
        rw [Bool.eq_false_iff]
        intro h
        rcases isAlpha_iff.1 h with ⟨-, h⟩ | ⟨-, h⟩ <;> exact hc (Nat.lt_of_le_of_lt h (by decide))
      rw [hbytes, List.cons_append, opensTagBytes_cons_of_le hb, halpha, decide_eq_false hslash]
      rfl

/-- One character of ASCII keeps the places the same. -/
theorem BytePlace.Stands.next_of_isAscii {bytePlace : BytePlace} {place : Place}
    (h : bytePlace.Stands place) {c : Char} (hc : IsAscii c) (text : Text) :
    (bytePlace.next c.toUInt8 (Text.utf8 text)).Stands (place.next c text) := by
  have heq : ∀ d, IsAscii d → (c.toUInt8 = d.toUInt8 ↔ c = d) := fun d => Text.toUInt8_inj hc
  have hequals : decide (c = '=') = decide (c.toUInt8 = '='.toUInt8) := by
    rw [decide_eq_decide, heq '=' (by decide)]
  have hnone : ∀ q ∈ (none : Option Char), IsAscii q := fun q hq => nomatch hq
  cases h with
  | outside =>
    simp only [BytePlace.next, Place.next, heq '<' (by decide), opensTagBytes_utf8]
    split
    · next hopen =>
      obtain rfl : c = '<' := by simpa using (Bool.and_eq_true_iff.1 hopen).1
      exact .inTag hnone rfl
    · exact .outside
  | @inTag quote afterEquals previous hquote hprevious =>
    subst hprevious
    cases quote with
    | some q =>
      have hq : IsAscii q := hquote q rfl
      simp only [BytePlace.next, Place.next, Option.map_some, heq q hq]
      split
      · exact .inTag hnone hequals
      · exact .inTag hquote hequals
    | none =>
      simp only [BytePlace.next, Place.next, Option.map_none, heq '"' (by decide),
        heq '\'' (by decide), heq '>' (by decide)]
      split
      · next hopen =>
        have hfalse : false = decide (c.toUInt8 = '='.toUInt8) := by
          rw [← hequals]
          simp only [Bool.and_eq_true, Bool.or_eq_true, decide_eq_true_eq] at hopen
          rcases hopen.1 with rfl | rfl <;> rfl
        have hquote : ∀ q ∈ some c, IsAscii q := fun q hq => Option.some.inj hq ▸ hc
        exact .inTag hquote hfalse
      split
      · exact .outside
      · exact .inTag hnone hequals

/-- So does one byte of any other character, which is neither a quote nor the end of a tag. -/
theorem BytePlace.Stands.next_of_le {bytePlace : BytePlace} {place : Place}
    (h : bytePlace.Stands place) {b : UInt8} (hb : 128 ≤ b.toNat) (bytes : List UInt8) :
    (bytePlace.next b bytes).Stands place.pastEquals := by
  have hne : ∀ d, IsAscii d → b ≠ d.toUInt8 := fun d hd => (Text.ne_of_isAscii hd hb).symm
  have hequals : false = decide (b = '='.toUInt8) :=
    (decide_eq_false (hne '=' (by decide))).symm
  cases h with
  | outside =>
    simp only [BytePlace.next, hne '<' (by decide)]
    exact .outside
  | @inTag quote afterEquals previous hquote hprevious =>
    cases quote with
    | some q =>
      simp only [BytePlace.next, Option.map_some, if_neg (hne q (hquote q rfl))]
      exact .inTag hquote hequals
    | none =>
      simp only [BytePlace.next, Option.map_none, hne '"' (by decide), hne '\'' (by decide),
        hne '>' (by decide), decide_false, Bool.or_self, Bool.false_and, if_false]
      exact .inTag hquote hequals

theorem BytePlace.Stands.next_eq_pastEquals {bytePlace : BytePlace} {place : Place}
    (h : bytePlace.Stands place) {c : Char} (hc : ¬IsAscii c) (text : Text) :
    place.next c text = place.pastEquals := by
  have hne : ∀ d, IsAscii d → c ≠ d := by
    rintro d hd rfl
    exact hc hd
  cases h with
  | outside => simp [Place.next, Place.pastEquals, hne '<' (by decide)]
  | @inTag quote afterEquals previous hquote hprevious =>
    cases quote with
    | some q =>
      simp [Place.next, Place.pastEquals, hne q (hquote q rfl), hne '=' (by decide)]
    | none =>
      simp [Place.next, Place.pastEquals, hne '"' (by decide), hne '\'' (by decide),
        hne '>' (by decide), hne '=' (by decide)]

theorem BytePlace.Stands.pastDirective {bytePlace : BytePlace} {place : Place}
    (h : bytePlace.Stands place) : bytePlace.pastDirective.Stands place.pastEquals := by
  cases h with
  | outside => exact .outside
  | inTag hquote _ => exact .inTag hquote rfl

/-- A directive starts at the same places. -/
theorem BytePlace.Stands.startsDirective_eq {bytePlace : BytePlace} {place : Place}
    (h : bytePlace.Stands place) (text : Text) :
    bytePlace.startsDirective (Text.utf8 text) =
      ((codeInTag? place text).isSome || isLeftOpen place text) := by
  cases h with
  | outside => rfl
  | inTag hquote _ =>
    rw [BytePlace.startsDirective, Text.isPrefixOf_utf8 (Text.forall_of_all (by decide)), Text.hasPrefix]
    cases hread : Text.dropPrefix? "<%".toList text with
    | some rest =>
      obtain rfl := Text.dropPrefix?_eq_some_iff.1 hread
      show true = ((Text.cutAt? "%>".toList rest).isSome || (Text.cutAt? "%>".toList rest).isNone)
      cases Text.cutAt? "%>".toList rest <;> rfl
    | none =>
      have hne : ∀ rest, text ≠ '<' :: '%' :: rest := by
        rintro rest rfl
        exact absurd (hread.symm.trans (Text.dropPrefix?_append "<%".toList rest)) (by simp)
      unfold codeInTag? isLeftOpen
      split
      · exact absurd rfl (hne _)
      · rfl

/-! ## Reading characters -/

section Scan

variable {source : Text} {draft : ByteDraft} {bytePlace : BytePlace} {place : Place}

theorem scanBytes?_cons {offset : Nat} {b : UInt8} {bytes : List UInt8}
    (h : bytePlace.startsDirective (b :: bytes) = false) :
    scanBytes? source draft offset bytePlace (b :: bytes) =
      scanBytes? source draft (offset + 1) (bytePlace.next b bytes) bytes := by
  rw [scanBytes?, h, if_neg Bool.false_ne_true]

theorem startsDirective_cons_of_le {b : UInt8} (hb : 128 ≤ b.toNat) (bytes : List UInt8) :
    bytePlace.startsDirective (b :: bytes) = false := by
  cases bytePlace with
  | outside => rfl
  | inTag quote previous =>
    have hne : '<'.toUInt8 ≠ b := Text.ne_of_isAscii (by decide) hb
    show ('<'.toUInt8 :: Text.utf8 "%".toList).isPrefixOf (b :: bytes) = false
    rw [List.isPrefixOf_cons_cons, beq_false_of_ne hne, Bool.false_and]

/-- The bytes of a character that is not one of ASCII are read without an event. -/
theorem scanBytes?_append (hplace : bytePlace.Stands place) {bytes : List UInt8}
    (hne : bytes ≠ []) (hbytes : ∀ b ∈ bytes, 128 ≤ b.toNat) (offset : Nat)
    (rest : List UInt8) :
    ∃ next : BytePlace, next.Stands place.pastEquals ∧
      scanBytes? source draft offset bytePlace (bytes ++ rest) =
        scanBytes? source draft (offset + bytes.length) next rest := by
  induction bytes generalizing bytePlace place offset with
  | nil => exact absurd rfl hne
  | cons b bytes ih =>
    obtain ⟨hb, hbytes⟩ := List.forall_mem_cons.1 hbytes
    have hnext := hplace.next_of_le hb (bytes ++ rest)
    rw [List.cons_append, scanBytes?_cons (startsDirective_cons_of_le hb _)]
    cases bytes with
    | nil => exact ⟨_, hnext, rfl⟩
    | cons e bytes =>
      obtain ⟨next, hstands, hscan⟩ := ih hnext (List.cons_ne_nil e bytes) hbytes (offset + 1)
      refine ⟨next, ?_, ?_⟩
      · cases place <;> exact hstands
      · rw [hscan, List.length_cons (a := b), Nat.add_assoc, Nat.add_comm 1]

/-- A character that starts no directive is read as one. -/
theorem scanBytes?_utf8_cons (hplace : bytePlace.Stands place) {c : Char} {text : Text}
    (h : bytePlace.startsDirective (Text.utf8 (c :: text)) = false) (offset : Nat) :
    ∃ next : BytePlace, next.Stands (place.next c text) ∧
      scanBytes? source draft offset bytePlace (Text.utf8 (c :: text)) =
        scanBytes? source draft (offset + c.utf8Size) next (Text.utf8 text) := by
  rw [← String.length_utf8EncodeChar]
  rw [Text.utf8_cons] at h ⊢
  by_cases hc : IsAscii c
  · rw [Text.utf8EncodeChar_of_isAscii hc, List.singleton_append] at h ⊢
    exact ⟨_, hplace.next_of_isAscii hc text, scanBytes?_cons h⟩
  · rw [hplace.next_eq_pastEquals hc]
    exact scanBytes?_append hplace String.utf8EncodeChar_ne_nil
      (fun b => Text.le_of_mem_utf8EncodeChar hc) offset _

theorem ByteDraft.finish?_eq {done rest : Text} (hsource : source = done ++ rest)
    (hcopied : draft.copied = Text.size done) :
    draft.finish? source = some ⟨draft.written ++ rest, draft.stash⟩ := by
  have hslice : Text.slice? source draft.copied (Text.size source) = some rest :=
    Text.slice?_eq_some_iff.2 ⟨done, [], by simpa using hsource, hcopied.symm, by
      rw [hsource, Text.size_append]⟩
  rw [ByteDraft.finish?, hslice]
  rfl

theorem ByteDraft.protect?_eq {done pending directive rest : Text}
    (hsource : source = done ++ (pending ++ (directive ++ rest)))
    (hcopied : draft.copied = Text.size done) :
    draft.protect? source (Text.size (done ++ pending))
        (Text.size (done ++ pending ++ directive)) =
      some ⟨draft.written ++ pending ++ placeholder draft.stash.length,
        draft.stash ++ [directive], Text.size (done ++ pending ++ directive)⟩ := by
  have hbefore : Text.slice? source draft.copied (Text.size (done ++ pending)) = some pending :=
    Text.slice?_eq_some_iff.2 ⟨done, directive ++ rest, hsource, hcopied.symm,
      (Text.size_append done pending).symm⟩
  have hdirective : Text.slice? source (Text.size (done ++ pending))
      (Text.size (done ++ pending ++ directive)) = some directive :=
    Text.slice?_eq_some_iff.2 ⟨done ++ pending, rest, by rw [hsource, List.append_assoc], rfl,
      (Text.size_append _ directive).symm⟩
  rw [ByteDraft.protect?, hbefore]
  simp only [Option.bind_eq_bind, Option.bind_some, hdirective]
  rfl

/-- A directive that is left open ends the search among bytes as well. -/
theorem scanBytes?_of_isLeftOpen (hplace : bytePlace.Stands place) {done pending text : Text}
    (hsource : source = done ++ (pending ++ text)) (hcopied : draft.copied = Text.size done)
    (hopen : isLeftOpen place text = true) (offset : Nat) :
    scanBytes? source draft offset bytePlace (Text.utf8 text) =
      some ⟨draft.written ++ pending ++ text, draft.stash⟩ := by
  have hstart : bytePlace.startsDirective (Text.utf8 text) = true := by
    rw [hplace.startsDirective_eq, hopen, Bool.or_true]
  obtain ⟨rest, rfl, hcut⟩ := exists_of_isLeftOpen hopen
  have hfind : Text.findBytes? (Text.utf8 "%>".toList) (Text.utf8 rest) = none := by
    rw [show "%>".toList = ['%', '>'] from rfl,
      Text.findBytes?_utf8 (Text.forall_of_all (by decide))]
    exact Option.map_eq_none_iff.2 hcut
  have hbytes : Text.utf8 ('<' :: '%' :: rest) =
      '<'.toUInt8 :: '%'.toUInt8 :: Text.utf8 rest :=
    rfl
  rw [hbytes] at hstart ⊢
  rw [scanBytes?, if_pos hstart]
  simp only [List.drop_succ_cons, List.drop_zero, hfind]
  rw [ByteDraft.finish?_eq hsource hcopied, List.append_assoc]

/-- A directive is cut out of the text where it begins and where it ends. -/
theorem scanBytes?_of_codeInTag? (hplace : bytePlace.Stands place) {text code after : Text}
    (hcode : codeInTag? place text = some (code, after)) (offset : Nat) :
    scanBytes? source draft offset bytePlace (Text.utf8 text) =
      (draft.protect? source offset (offset + Text.size (delimited code))).bind fun draft =>
        scanBytes? source draft (offset + Text.size (delimited code)) bytePlace.pastDirective
          (Text.utf8 after) := by
  have hstart : bytePlace.startsDirective (Text.utf8 text) = true := by
    rw [hplace.startsDirective_eq, hcode]
    rfl
  obtain ⟨-, rfl, hcut⟩ := exists_of_codeInTag? hcode
  have hfind : Text.findBytes? (Text.utf8 "%>".toList) (Text.utf8 (code ++ '%' :: '>' :: after)) =
      some (Text.size code) := by
    rw [show "%>".toList = ['%', '>'] from rfl,
      Text.findBytes?_utf8 (Text.forall_of_all (by decide))]
    exact Option.map_eq_some_iff.2 ⟨(code, after), hcut, rfl⟩
  have hbytes : Text.utf8 (delimited code ++ after) =
      '<'.toUInt8 :: '%'.toUInt8 :: Text.utf8 (code ++ '%' :: '>' :: after) := by
    rw [delimited_append]
    rfl
  have hsize : Text.size (delimited code) = 2 + Text.size code + 2 := by
    show Text.size (['<', '%'] ++ (code ++ ['%', '>'])) = _
    rw [Text.size_append, Text.size_append, Nat.add_assoc]
    rfl
  have hdrop : (Text.utf8 (code ++ '%' :: '>' :: after)).drop (Text.size code + 2) =
      Text.utf8 after := by
    rw [Text.utf8_append, Text.size, List.drop_length_add_append]
    rfl
  rw [hbytes] at hstart ⊢
  rw [scanBytes?, if_pos hstart]
  simp only [List.drop_succ_cons, List.drop_zero, hfind, hdrop, hsize, Nat.add_assoc]
  rfl

end Scan

/-- What is left to read comes out as it does among characters. -/
theorem scanBytes?_utf8 (done pending : Text) {source text : Text} {draft : ByteDraft} {n : Nat}
    {bytePlace : BytePlace} {place : Place} (hplace : bytePlace.Stands place)
    (hsource : source = done ++ (pending ++ text)) (hcopied : draft.copied = Text.size done)
    (hn : draft.stash.length = n) :
    scanBytes? source draft (Text.size (done ++ pending)) bytePlace (Text.utf8 text) =
      some ⟨draft.written ++ pending ++ (setAsideFrom n place text).1,
        draft.stash ++ (setAsideFrom n place text).2⟩ := by
  induction n, place, text using setAsideFrom_induction
    generalizing draft bytePlace done pending with
  | nil n place =>
    have hfinish := ByteDraft.finish?_eq hsource hcopied
    rw [List.append_nil] at hfinish
    rw [show Text.utf8 [] = [] from rfl, scanBytes?, hfinish, setAsideFrom, List.append_nil,
      List.append_nil]
  | directive n place text code after hcode ih =>
    obtain ⟨-, htext, -⟩ := exists_of_codeInTag? hcode
    rw [htext] at hsource
    have hafter : source = (done ++ pending ++ delimited code) ++ ([] ++ after) := by
      rw [hsource, List.nil_append, List.append_assoc, List.append_assoc]
    have hread (draft : ByteDraft)
        (hcopied : draft.copied = Text.size (done ++ pending ++ delimited code))
        (hn : draft.stash.length = n + 1) :=
      ih _ [] hplace.pastDirective hafter hcopied hn
    rw [List.append_nil] at hread
    rw [scanBytes?_of_codeInTag? hplace hcode, setAsideFrom_of_codeInTag? n hcode,
      ← Text.size_append, ByteDraft.protect?_eq hsource hcopied, Option.bind_some,
      hread _ rfl (by rw [List.length_append, hn, List.length_singleton]), hn]
    simp
  | leftOpen n place text hopen =>
    rw [scanBytes?_of_isLeftOpen hplace hsource hcopied hopen, setAsideFrom_of_isLeftOpen n hopen,
      List.append_nil]
  | char n place c text hcode hopen ih =>
    have hstart : bytePlace.startsDirective (Text.utf8 (c :: text)) = false := by
      rw [hplace.startsDirective_eq, hcode, hopen]
      rfl
    obtain ⟨next, hnext, hscan⟩ :=
      scanBytes?_utf8_cons hplace hstart (Text.size (done ++ pending))
    have hmove : Text.size (done ++ pending) + c.utf8Size =
        Text.size (done ++ (pending ++ [c])) := by
      rw [← List.append_assoc, Text.size_append (done ++ pending), Text.size_cons]
      rfl
    have htext : source = done ++ (pending ++ [c] ++ text) := by
      rw [hsource, List.append_assoc]
      rfl
    rw [hscan, hmove, ih done _ hnext htext hcopied hn, setAsideFrom_cons n hcode hopen]
    simp

/-- No cut falls inside of a character, and the first pass is what it is among characters. -/
theorem setAsideBytes?_eq (draft : Draft) :
    setAsideBytes? draft = some (Pass.setAside.run draft) :=
  scanBytes?_utf8 [] [] .outside rfl rfl rfl

end SlimTemplate.Directive
