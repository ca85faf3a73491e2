import SlimTemplate.Proofs.Line.Decomposed
import SlimTemplate.Proofs.Text.Utf8

/-!
# Heads read over bytes

Where a line is stored in UTF-8, the parts of its head are looked for among its bytes and cut out of
the line between two byte offsets. A cut fails where an offset is inside of a character, and
counting the open brackets fails where one is closed that was not open. All bytes that are looked
for are ones of ASCII, and a list of attributes begins with a bracket, so nothing fails: what is cut
out are the parts that the line consists of.

## Main definitions

* `Head.Scanned`: a head with its identifier and its classes, as it is cut out of a line.
* `Head.scanBytes?`: the head of a line, unless something fails.

## Main statements

* `Head.scanNames?_utf8`, `Head.closingFrom?_utf8`: the loops over bytes read what is read among
  characters.
* `Head.scanBytes?_eq`: nothing fails, and the head is the one that is read among characters.
* `Head.scanBytes_decomposes`: the parts of every line, and of its head alone.
-/

namespace SlimTemplate.Head

open Text (IsAscii onAscii size slice? utf8)

/-! ## Reading bytes -/

/-- A head as it is cut out of a line. -/
structure Scanned where
  element : Option Text
  id : Option Text
  classes : List Text
  attributes : Option Text
  /-- The head as written. -/
  head : Text
  remainder : Text
  deriving DecidableEq, Repr

/-- The parts of a head with its first identifier and its classes. -/
def scanned (head : Head) : Scanned :=
  ⟨head.element, head.id?, head.classes, head.attributes, head.text, head.remainder⟩

/-- The offset at which a run of bytes that pass a test ends. -/
def endOfRun (test : UInt8 → Bool) (offset : Nat) : List UInt8 → Nat
  | [] => offset
  | b :: bytes => if test b then endOfRun test (offset + 1) bytes else offset

/-- The identifier and the classes read up to an offset. -/
structure Names where
  offset : Nat
  id : Option Text
  classes : List Text

/-- One more name, which ends at an offset. Only the first identifier counts. -/
def Names.push (names : Names) (sign : UInt8) (name : Text) (stop : Nat) : Names :=
  if sign = '#'.toUInt8 then ⟨stop, names.id.or (some name), names.classes⟩
  else ⟨stop, names.id, names.classes ++ [name]⟩

/-- The names read from some bytes on. A sign without a name ends them. -/
def scanNames? (content : Text) (names : Names) : List UInt8 → Option Names
  | [] => some names
  | b :: bytes =>
    if b = '#'.toUInt8 || b = '.'.toUInt8 then
      let stop := endOfRun (onAscii isNameChar) (names.offset + 1) bytes
      if stop = names.offset + 1 then some names
      else do
        let name ← slice? content (names.offset + 1) stop
        scanNames? content (names.push b name stop) (bytes.drop (stop - (names.offset + 1)))
    else some names
termination_by bytes => bytes.length
decreasing_by
  rw [List.length_drop, List.length_cons]
  omega

/-- The offset of the bracket that closes the last of `depth` open ones, if there is one. To close a
bracket where none is open fails. -/
def closingFrom? (depth : Nat) (quote : Option UInt8) (offset : Nat) :
    List UInt8 → Option (Option Nat)
  | [] => some none
  | b :: bytes =>
    match quote with
    | some q => closingFrom? depth (if b = q then none else some q) (offset + 1) bytes
    | none =>
      if b = '"'.toUInt8 || b = '\''.toUInt8 then closingFrom? depth (some b) (offset + 1) bytes
      else if b = '['.toUInt8 then closingFrom? (depth + 1) none (offset + 1) bytes
      else if b = ']'.toUInt8 then
        if depth = 0 then none
        else if depth = 1 then some (some offset)
        else closingFrom? (depth - 1) none (offset + 1) bytes
      else closingFrom? depth none (offset + 1) bytes

/-- The attributes at an offset, if there are any, and where they end. A list that is never closed
takes the whole line. -/
def scanAttributes? (content : Text) (offset : Nat) (bytes : List UInt8) :
    Option (Option Text × Nat) :=
  if bytes.head? = some '['.toUInt8 then do
    let close ← closingFrom? 0 none offset bytes
    let stop := (close.map (· + 1)).getD (size content)
    let attributes ← slice? content offset stop
    return (some attributes, stop)
  else some (none, offset)

/-- The part of a head behind the tag name, which ends at an offset. -/
def scanAfter? (content : Text) (element : Option Text) (offset : Nat) : Option Scanned := do
  let names ← scanNames? content ⟨offset, none, []⟩ ((utf8 content).drop offset)
  let (attributes, stop) ← scanAttributes? content names.offset ((utf8 content).drop names.offset)
  let head ← slice? content 0 stop
  let remainder ← slice? content stop (size content)
  return ⟨element, names.id, names.classes, attributes, head, remainder⟩

/-- The head of a line, if it has one. There is no outcome if something fails. -/
def scanBytes? (content : Text) : Option (Option Scanned) :=
  match utf8 content with
  | [] => some none
  | first :: bytes =>
    if onAscii Char.isAlpha first then do
      let offset := endOfRun (onAscii isTagChar) 1 bytes
      let element ← slice? content 0 offset
      return some (← scanAfter? content (some element) offset)
    else if first = '#'.toUInt8 || first = '.'.toUInt8 then (scanAfter? content none 0).map some
    else some none

/-! ## Runs and cuts -/

variable {c : Char} {test : Char → Bool} {content text rest : Text} {head : Head}

theorem isAscii_of_isNameChar (h : isNameChar c = true) : IsAscii c :=
  isAscii_of_isTagChar (isTagChar_of_isNameChar h)

theorem isAscii_of_isAlpha (h : c.isAlpha = true) : IsAscii c :=
  Text.isAscii_of_isAlphanum (by rw [Char.isAlphanum, h, Bool.true_or])

/-- A run of characters of ASCII ends at the same place among bytes. -/
theorem endOfRun_utf8 (htest : ∀ d, test d = true → IsAscii d) (text : Text) (offset : Nat) :
    endOfRun (onAscii test) offset (utf8 text) = offset + size (text.takeWhile test) := by
  induction text generalizing offset with
  | nil => rfl
  | cons c text ih =>
    by_cases hc : test c = true
    · have hascii := htest c hc
      rw [Text.utf8_cons_of_isAscii hascii, endOfRun, Text.onAscii_toUInt8 test hascii, if_pos hc,
        ih, List.takeWhile_cons_of_pos hc, Text.size_cons_of_isAscii hascii, Nat.add_assoc]
    · obtain ⟨b, bytes, hbytes, -, hb⟩ := Text.exists_utf8_cons c text
      rw [hbytes, endOfRun, hb test htest, if_neg hc, List.takeWhile_cons_of_neg hc]
      rfl

/-- What a line begins with is cut out up to its size. -/
theorem slice?_zero {part after : Text} (h : content = part ++ after) :
    slice? content 0 (size part) = some part :=
  Text.slice?_eq_some_iff.2 ⟨[], after, h, rfl, Nat.zero_add _⟩

theorem drop_utf8_append (before after : Text) :
    (utf8 (before ++ after)).drop (size before) = utf8 after := by
  rw [Text.utf8_append]
  exact List.drop_left

/-! ## Names -/

theorem isAscii_of_sign (hc : c = '#' ∨ c = '.') : IsAscii c := by
  rcases hc with rfl | rfl <;> decide

/-- One name is cut out behind its sign. -/
theorem scanNames?_append (done : Text) {mark : Mark} (hmark : mark.IsName)
    (hrest : ∀ c ∈ rest.head?, isNameChar c = false)
    (hcontent : content = done ++ (mark.text ++ rest)) (id : Option Text) (classes : List Text) :
    scanNames? content ⟨size done, id, classes⟩ (utf8 (mark.text ++ rest)) =
      scanNames? content (Names.push ⟨size done, id, classes⟩ mark.sign.toUInt8 mark.name
        (size (done ++ mark.text))) (utf8 rest) := by
  have hsign := isAscii_of_sign hmark.sign
  have htest : (mark.sign.toUInt8 = '#'.toUInt8 || mark.sign.toUInt8 = '.'.toUInt8) = true := by
    rcases hmark.sign with hsign | hsign <;> rw [hsign] <;> rfl
  have hstop : size (done ++ mark.text) = size done + 1 + size mark.name := by
    rw [Text.size_append, Mark.text, Text.size_cons_of_isAscii hsign, Nat.add_assoc]
  have hrun : endOfRun (onAscii isNameChar) (size done + 1) (utf8 (mark.name ++ rest)) =
      size (done ++ mark.text) := by
    rw [endOfRun_utf8 (fun _ => isAscii_of_isNameChar), takeWhile_append_of_head? hrest,
      List.takeWhile_eq_self_iff.2 hmark.name, hstop]
  have hne : size (done ++ mark.text) ≠ size done + 1 := by
    obtain ⟨c, letters, hname⟩ := List.exists_cons_of_ne_nil hmark.name_ne_nil
    have hpos := c.utf8Size_pos
    rw [hstop, hname, Text.size_cons]
    omega
  have hslice : slice? content (size done + 1) (size (done ++ mark.text)) = some mark.name := by
    have hdone : size (done ++ [mark.sign]) = size done + 1 := by
      rw [Text.size_append, Text.size_cons_of_isAscii hsign, Text.size_nil]
    refine Text.slice?_eq_some_iff.2 ⟨done ++ [mark.sign], rest, ?_, hdone, by rw [hdone, hstop]⟩
    rw [hcontent, Mark.text, List.cons_append, List.append_cons]
  have hdrop : (utf8 (mark.name ++ rest)).drop (size (done ++ mark.text) - (size done + 1)) =
      utf8 rest := by
    rw [hstop, Nat.add_sub_cancel_left, drop_utf8_append]
  rw [Mark.text, List.cons_append, Text.utf8_cons_of_isAscii hsign, scanNames?, if_pos htest]
  simp only [hrun, if_neg hne, hslice, hdrop]
  rfl

/-- A sign without a name ends the names, and so does everything that is no sign. -/
theorem scanNames?_of_not_mark
    (h : ¬((c = '#' || c = '.') && !(text.takeWhile isNameChar).isEmpty) = true) (names : Names) :
    scanNames? content names (utf8 (c :: text)) = some names := by
  obtain ⟨b, bytes, hbytes, hb, -⟩ := Text.exists_utf8_cons c text
  rw [hbytes, scanNames?]
  simp only [hb '#' (by decide), hb '.' (by decide)]
  split
  · next hsign =>
    have hempty : text.takeWhile isNameChar = [] := by
      simpa [hsign] using h
    have hascii : IsAscii c := isAscii_of_sign (by simpa using hsign)
    obtain ⟨-, rfl⟩ := List.cons.inj (hbytes.symm.trans (Text.utf8_cons_of_isAscii hascii text))
    rw [if_pos]
    rw [endOfRun_utf8 (fun _ => isAscii_of_isNameChar), hempty]
    rfl
  · rfl

/-- The first identifier and the classes are read, up to where the marks end. -/
theorem scanNames?_utf8 (done : Text) {id : Option Text} {classes : List Text}
    (hcontent : content = done ++ text) :
    scanNames? content ⟨size done, id, classes⟩ (utf8 text) =
      some ⟨size (done ++ (readMarks text).1.flatMap Mark.text),
        id.or (((readMarks text).1.find? (·.sign = '#')).map (·.name)),
        classes ++ ((readMarks text).1.filter (·.sign = '.')).map (·.name)⟩ := by
  fun_induction readMarks text generalizing done id classes with
  | case1 => simp [utf8, scanNames?]
  | case2 c text name hmark marks after hread ih =>
    have hname : Mark.IsName ⟨c, name⟩ := isName_takeWhile hmark
    have htext : c :: text = Mark.text ⟨c, name⟩ ++ text.dropWhile isNameChar :=
      (text_takeWhile_append c text).symm
    have hafter : content = done ++ Mark.text ⟨c, name⟩ ++ text.dropWhile isNameChar := by
      rw [hcontent, htext, List.append_assoc]
    have hrest : ∀ d ∈ (text.dropWhile isNameChar).head?, isNameChar d = false :=
      fun d hd => Text.eq_false_of_mem_head?_dropWhile hd
    rw [hread] at ih
    rw [htext] at hcontent ⊢
    rw [scanNames?_append done hname hrest hcontent, List.flatMap_cons, ← List.append_assoc]
    rcases hname.sign with hsign | hsign
    · obtain rfl : c = '#' := hsign
      refine (ih _ hafter).trans ?_
      simp
    · obtain rfl : c = '.' := hsign
      refine (ih _ hafter).trans ?_
      simp
  | case3 c text name hmark =>
    rw [scanNames?_of_not_mark hmark]
    simp

/-! ## Attributes -/

/-- Bytes of a character that is not one of ASCII are no brackets and no quotes. -/
theorem closingFrom?_append {quote : Option Char} (hquote : ∀ q ∈ quote, IsAscii q)
    {bytes : List UInt8} (hbytes : ∀ b ∈ bytes, 128 ≤ b.toNat) (depth offset : Nat)
    (rest : List UInt8) :
    closingFrom? depth (quote.map (·.toUInt8)) offset (bytes ++ rest) =
      closingFrom? depth (quote.map (·.toUInt8)) (offset + bytes.length) rest := by
  induction bytes generalizing offset with
  | nil => rfl
  | cons b bytes ih =>
    obtain ⟨hb, hbytes⟩ := List.forall_mem_cons.1 hbytes
    have hne : ∀ d, IsAscii d → b ≠ d.toUInt8 := fun d hd => (Text.ne_of_isAscii hd hb).symm
    have hnext : closingFrom? depth (quote.map (·.toUInt8)) offset (b :: (bytes ++ rest)) =
        closingFrom? depth (quote.map (·.toUInt8)) (offset + 1) (bytes ++ rest) := by
      cases quote with
      | some q =>
        rw [Option.map_some, closingFrom?]
        simp only [if_neg (hne q (hquote q rfl))]
      | none =>
        rw [Option.map_none, closingFrom?]
        simp [hne '"' (by decide), hne '\'' (by decide), hne '[' (by decide), hne ']' (by decide)]
    rw [List.cons_append, hnext, ih hbytes, List.length_cons, Nat.add_assoc, Nat.add_comm 1]

theorem nesting_of_not_isAscii {quote : Option Char} (hquote : ∀ q ∈ quote, IsAscii q)
    (hc : ¬IsAscii c) (depth : Nat) : nesting depth quote c = (depth, quote) := by
  have hne : ∀ d, IsAscii d → c ≠ d := by
    rintro d hd rfl
    exact hc hd
  cases quote with
  | some q => simp [nesting, hne q (hquote q rfl)]
  | none =>
    simp [nesting, hne '"' (by decide), hne '\'' (by decide), hne '[' (by decide),
      hne ']' (by decide)]

/-- Both quotes are characters of ASCII. -/
theorem isAscii_of_mem_nesting {quote : Option Char} (hquote : ∀ q ∈ quote, IsAscii q)
    (depth : Nat) (c : Char) : ∀ q ∈ (nesting depth quote c).2, IsAscii q := by
  cases quote with
  | some q =>
    intro d hd
    rw [nesting] at hd
    split at hd
    · cases hd
    · exact hquote d hd
  | none =>
    by_cases hmark : c = '"' ∨ c = '\''
    · have hascii : IsAscii c := by
        rcases hmark with rfl | rfl <;> decide
      simpa [nesting, hmark] using hascii
    by_cases hopen : c = '['
    · simp [nesting, hopen]
    by_cases hclose : c = ']'
    · simp [nesting, hclose]
    · simp [nesting, hmark, hopen, hclose]

/-- The last open bracket is closed at the same character among bytes. -/
theorem closingFrom?_cons {depth : Nat} (hdepth : 0 < depth) {quote : Option Char}
    (hquote : ∀ q ∈ quote, IsAscii q) (c : Char) (text : Text) (offset : Nat) :
    closingFrom? depth (quote.map (·.toUInt8)) offset (utf8 (c :: text)) =
      if (nesting depth quote c).1 = 0 then some (some offset)
      else closingFrom? (nesting depth quote c).1 ((nesting depth quote c).2.map (·.toUInt8))
        (offset + c.utf8Size) (utf8 text) := by
  have hne : depth ≠ 0 := hdepth.ne'
  by_cases hc : IsAscii c
  · have heq : ∀ d, IsAscii d → (c.toUInt8 = d.toUInt8 ↔ c = d) := fun d => Text.toUInt8_inj hc
    rw [Text.utf8_cons_of_isAscii hc, Text.utf8Size_of_isAscii hc]
    cases quote with
    | some q =>
      rw [nesting, if_neg hne, Option.map_some, closingFrom?]
      simp only [heq q (hquote q rfl)]
      split <;> rfl
    | none =>
      simp only [Option.map_none, closingFrom?, heq '"' (by decide), heq '\'' (by decide),
        heq '[' (by decide), heq ']' (by decide)]
      by_cases hmark : c = '"' ∨ c = '\''
      · simp [nesting, hmark, hne]
      by_cases hopen : c = '['
      · simp [nesting, hopen]
      by_cases hclose : c = ']'
      · by_cases hone : depth = 1
        · simp [nesting, hclose, hone]
        · have hmore : depth - 1 ≠ 0 := by omega
          simp [nesting, hclose, hne, hone, hmore]
      · simp [nesting, hmark, hopen, hclose, hne]
  · rw [nesting_of_not_isAscii hquote hc, if_neg hne, Text.utf8_cons,
      closingFrom?_append hquote (fun b => Text.le_of_mem_utf8EncodeChar hc),
      String.length_utf8EncodeChar]

/-- Behind an open bracket the list ends at the same place among bytes, and no bracket is closed
that was not open. -/
theorem closingFrom?_utf8 {depth : Nat} (hdepth : 0 < depth) {quote : Option Char}
    (hquote : ∀ q ∈ quote, IsAscii q) (text : Text) (offset : Nat) :
    ∃ close, closingFrom? depth (quote.map (·.toUInt8)) offset (utf8 text) = some close ∧
      (close.map (· + 1)).getD (offset + size text) =
        offset + size (readBrackets depth quote text).1 := by
  induction text generalizing depth quote offset with
  | nil => exact ⟨none, rfl, rfl⟩
  | cons c text ih =>
    rw [closingFrom?_cons hdepth hquote, readBrackets_cons_eq hdepth]
    split
    · next hzero =>
      have hascii : IsAscii c := by
        by_contra hc
        rw [nesting_of_not_isAscii hquote hc] at hzero
        exact hdepth.ne' hzero
      have hone : size [c] = 1 := by rw [Text.size_cons_of_isAscii hascii, Text.size_nil]
      exact ⟨some offset, rfl, by rw [hone]; rfl⟩
    · next hpos =>
      obtain ⟨close, hclose, hstop⟩ := ih (Nat.pos_of_ne_zero hpos)
        (isAscii_of_mem_nesting hquote depth c) (offset + c.utf8Size)
      refine ⟨close, hclose, ?_⟩
      rw [Text.size_cons, Text.size_cons, ← Nat.add_assoc, ← Nat.add_assoc, hstop]

/-- A list of attributes ends at the same place among bytes. -/
theorem closingFrom?_bracket (text : Text) (offset : Nat) :
    ∃ close, closingFrom? 0 none offset (utf8 ('[' :: text)) = some close ∧
      (close.map (· + 1)).getD (offset + size ('[' :: text)) =
        offset + size (readBrackets 0 none ('[' :: text)).1 := by
  have hbracket : IsAscii '[' := by decide
  obtain ⟨close, hclose, hstop⟩ :=
    closingFrom?_utf8 Nat.one_pos (fun q (hq : q ∈ none) => nomatch hq) text (offset + 1)
  refine ⟨close, ?_, ?_⟩
  · rw [Text.utf8_cons_of_isAscii hbracket]
    exact hclose
  · rw [readBrackets_bracket, Text.size_cons_of_isAscii hbracket, Text.size_cons_of_isAscii hbracket,
      ← Nat.add_assoc, ← Nat.add_assoc, hstop]

theorem scanAttributes?_utf8 (done : Text) (hcontent : content = done ++ text) :
    scanAttributes? content (size done) (utf8 text) =
      some ((readAttributes text).1, size (done ++ (readAttributes text).1.getD [])) := by
  cases text with
  | nil =>
    rw [scanAttributes?, if_neg (by simp [utf8])]
    simp [readAttributes]
  | cons c text =>
    obtain ⟨b, bytes, hbytes, hb, -⟩ := Text.exists_utf8_cons c text
    have hhead : (utf8 (c :: text)).head? = some '['.toUInt8 ↔ c = '[' := by
      rw [hbytes, List.head?_cons, Option.some.injEq, hb '[' (by decide)]
    by_cases hc : c = '['
    · rw [scanAttributes?, if_pos (hhead.2 hc)]
      subst hc
      obtain ⟨close, hclose, hstop⟩ := closingFrom?_bracket text (size done)
      have hsize : size content = size done + size ('[' :: text) := by
        rw [hcontent, Text.size_append]
      have hslice : slice? content (size done)
          (size done + size (readBrackets 0 none ('[' :: text)).1) =
            some (readBrackets 0 none ('[' :: text)).1 := by
        refine Text.slice?_eq_some_iff.2
          ⟨done, (readBrackets 0 none ('[' :: text)).2, ?_, rfl, rfl⟩
        rw [readBrackets_append, hcontent]
      rw [readAttributes_bracket, hclose]
      simp only [Option.bind_eq_bind, Option.bind_some, hsize, hstop, hslice]
      rw [Option.getD_some, Text.size_append]
      rfl
    · rw [scanAttributes?, if_neg (mt hhead.1 hc), readAttributes_of_not_bracket hc,
        Option.getD_none, List.append_nil]

/-! ## Whole heads -/

theorem scanAfter?_utf8 (element : Option Text) (hcontent : content = element.getD [] ++ text) :
    scanAfter? content element (size (element.getD [])) =
      some (scanAfterName element text).scanned := by
  have hnames : content = element.getD [] ++ (readMarks text).1.flatMap Mark.text ++
      (readMarks text).2 := by
    rw [hcontent, List.append_assoc, flatMap_text_readMarks]
  have hhead : content =
      (scanAfterName element text).text ++ (scanAfterName element text).remainder := by
    rw [hcontent, text_scanAfterName]
  have hslice := slice?_zero hhead
  have hrest : slice? content (size (scanAfterName element text).text) (size content) =
      some (scanAfterName element text).remainder :=
    Text.slice?_eq_some_iff.2 ⟨_, [], by rw [List.append_nil, ← hhead], rfl, by
      rw [← Text.size_append, ← hhead]⟩
  have hdrop : (utf8 content).drop (size (element.getD [])) = utf8 text := by
    rw [hcontent, drop_utf8_append]
  have hdrop' : (utf8 content).drop
      (size (element.getD [] ++ (readMarks text).1.flatMap Mark.text)) =
        utf8 (readMarks text).2 := by
    rw [hnames, drop_utf8_append]
  rw [scanAfter?, hdrop, scanNames?_utf8 _ hcontent]
  simp only [Option.bind_eq_bind, Option.bind_some, hdrop', scanAttributes?_utf8 _ hnames]
  change (slice? content 0 (size (scanAfterName element text).text)).bind _ = _
  rw [hslice, Option.bind_some]
  change (slice? content (size (scanAfterName element text).text) (size content)).bind _ = _
  rw [hrest]
  rfl

/-- Nothing fails, and the head is the one that is read among characters. -/
theorem scanBytes?_eq (content : Text) :
    scanBytes? content = some ((scan? content).map scanned) := by
  cases content with
  | nil => rfl
  | cons c text =>
    obtain ⟨b, bytes, hbytes, hb, htest⟩ := Text.exists_utf8_cons c text
    rw [scanBytes?]
    simp only [hbytes, htest Char.isAlpha (fun _ => isAscii_of_isAlpha), hb '#' (by decide),
      hb '.' (by decide), scan?]
    split
    · next halpha =>
      have hascii := isAscii_of_isAlpha halpha
      obtain ⟨-, rfl⟩ := List.cons.inj (hbytes.symm.trans (Text.utf8_cons_of_isAscii hascii text))
      have hname : c :: text = (c :: text.takeWhile isTagChar) ++ text.dropWhile isTagChar := by
        rw [List.cons_append, List.takeWhile_append_dropWhile]
      have hstop : endOfRun (onAscii isTagChar) 1 (utf8 text) =
          size (c :: text.takeWhile isTagChar) := by
        rw [endOfRun_utf8 (fun _ => isAscii_of_isTagChar), Text.size_cons_of_isAscii hascii]
      rw [hstop, slice?_zero hname]
      have hafter := scanAfter?_utf8 (some (c :: text.takeWhile isTagChar)) hname
      rw [Option.getD_some] at hafter
      simp only [Option.bind_eq_bind, Option.bind_some, hafter]
      rfl
    split
    · have hafter : scanAfter? (c :: text) none 0 = some (scanAfterName none (c :: text)).scanned :=
        scanAfter?_utf8 none rfl
      rw [hafter]
      rfl
    · rfl

theorem isSome_scan?_iff :
    (scan? content).isSome = true ↔ ∃ c ∈ content.head?, c.isAlpha = true ∨ c = '#' ∨ c = '.' := by
  constructor
  · intro hsome
    obtain ⟨head, hscan⟩ := Option.isSome_iff_exists.1 hsome
    obtain ⟨c, text, rfl, hc⟩ := scan?_eq_some hscan
    exact ⟨c, rfl, hc⟩
  · rintro ⟨c, hc, halpha | hsign⟩
    · obtain ⟨text, rfl⟩ := List.head?_eq_some_iff.1 hc
      rw [scan?_of_isAlpha halpha]
      rfl
    · obtain ⟨text, rfl⟩ := List.head?_eq_some_iff.1 hc
      rw [scan?_of_sign hsign]
      rfl

/-- On every line nothing fails. A head is found exactly if the line begins with a letter, `#` or
`.`, and it is made of the parts that the line consists of. The head alone, if it is not empty, has
the same parts with nothing behind them. -/
theorem scanBytes_decomposes (content : Text) :
    ∃ result, scanBytes? content = some result ∧
      (result.isSome = true ↔ ∃ c ∈ content.head?, c.isAlpha = true ∨ c = '#' ∨ c = '.') ∧
      (∀ found, result = some found ↔
        ∃ head : Head, head.Decomposes content ∧ head.scanned = found) ∧
      ∀ found, result = some found → found.head ≠ [] →
        scanBytes? found.head = some (some { found with remainder := [] }) := by
  refine ⟨(scan? content).map scanned, scanBytes?_eq content, ?_, fun found => ?_,
    fun found hfound hne => ?_⟩
  · rw [Option.isSome_map, isSome_scan?_iff]
  · simp only [Option.map_eq_some_iff, scan?_eq_some_iff]
  · obtain ⟨head, hscan, rfl⟩ := Option.map_eq_some_iff.1 hfound
    have halone := (decomposes_of_scan? hscan).without_remainder hne
    have hread : scan? head.scanned.head = some { head with remainder := [] } :=
      halone.scan?_eq_some
    rw [scanBytes?_eq, hread]
    rfl

theorem scanBytes_decomposes_link :
    scanBytes? "a#x.y#z[title=\"]\"] Né".toList =
        some (some ⟨some "a".toList, some "x".toList, ["y".toList], some "[title=\"]\"]".toList,
          "a#x.y#z[title=\"]\"]".toList, " Né".toList⟩) ∧
      scanBytes? "a#x.y#z[title=\"]\"]".toList =
        some (some ⟨some "a".toList, some "x".toList, ["y".toList], some "[title=\"]\"]".toList,
          "a#x.y#z[title=\"]\"]".toList, []⟩) := by
  have hscan : scanBytes? "a#x.y#z[title=\"]\"] Né".toList =
      some (some ⟨some "a".toList, some "x".toList, ["y".toList], some "[title=\"]\"]".toList,
        "a#x.y#z[title=\"]\"]".toList, " Né".toList⟩) := by
    decide +kernel
  obtain ⟨result, hresult, -, -, halone⟩ := scanBytes_decomposes "a#x.y#z[title=\"]\"] Né".toList
  exact ⟨hscan, halone _ (Option.some.inj (hresult.symm.trans hscan)) (by decide)⟩

end SlimTemplate.Head
