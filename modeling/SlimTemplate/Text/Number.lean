import SlimTemplate.Text.Word

/-!
# Numbers in texts

Numbers are read from ASCII digits, of any base up to sixteen. A size that a text spells out is
read when it fits into a machine word of 64 bits.

## Main definitions

* `Text.readNumber`: the number at the start of a text, and how many digits it has.
* `Text.digitsValue`: the value of ASCII digits.
* `Text.readSize?`: the size that a whole text spells.
-/

namespace SlimTemplate.Text

/-- The value of a digit in a base of up to sixteen. -/
def digit? (base : Nat) (c : Char) : Option Nat :=
  let n := c.toNat
  let value? :=
    if c.isDigit then some (n - 0x30)
    else if 'a' ≤ c && c ≤ 'f' then some (n - 0x57)
    else if 'A' ≤ c && c ≤ 'F' then some (n - 0x37)
    else none
  value?.filter (· < base)

/-- The number at the start of a text, given the number read so far and its count of digits, and
that count at the end. -/
def readNumberFrom (base number count : Nat) : Text → Nat × Nat
  | [] => (number, count)
  | c :: text =>
    match digit? base c with
    | some d => readNumberFrom base (number * base + d) (count + 1) text
    | none => (number, count)

/-- The number at the start of a text and its count of digits. -/
def readNumber (base : Nat) (text : Text) : Nat × Nat :=
  readNumberFrom base 0 0 text

/-- The value of ASCII digits, the first one being the highest. -/
def digitsValue (digits : Text) : Nat :=
  digits.foldl (fun n c => n * 10 + (c.toNat - 0x30)) 0

/-- The largest size that can be read. -/
def maxSize : Nat :=
  0xFFFFFFFFFFFFFFFF

/-- The number of negative numbers that fit into a machine word with a sign. -/
def signedRange : Nat :=
  0x8000000000000000

/-- The size that a text of digits spells, if there is one that can be read. -/
def readSize? (text : Text) : Option Nat :=
  if text.isEmpty || !text.all Char.isDigit || digitsValue text > maxSize then none
  else some (digitsValue text)

end SlimTemplate.Text
