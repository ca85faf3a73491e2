import SlimTemplate.Settings.Binary64

/-!
# Numbers of settings files

A number is a word. Whole numbers are decimal with or without a sign, or have a base of sixteen,
eight or two; they fit into 64 bits with their sign. Numbers with a point or a power of ten are
floating-point numbers. Single underscores may stand between digits.

## Main definitions

* `Settings.Toml.whole?`: the whole number that a word spells.
* `Settings.Toml.real?`: the floating-point number that a word spells.
-/

namespace SlimTemplate.Settings.Toml

/-- Digits without the single underscores between them. -/
def plainDigits? (base : Nat) (text : Text) : Option Text :=
  let parts := Text.splitOn '_' text
  if parts.any fun part => part.isEmpty || part.any fun c => (Text.digit? base c).isNone then none
  else some parts.flatten

/-- Decimal digits of a whole number without their underscores. Only zero begins with zero. -/
def wholeDigits? (text : Text) : Option Text :=
  (plainDigits? 10 text).filter fun digits => digits == ['0'] || digits.head? ≠ some '0'

/-- Whether a minus sign is at the start of a word, and the word without a sign. -/
def splitSign : Text → Bool × Text
  | '-' :: rest => (true, rest)
  | '+' :: rest => (false, rest)
  | text => (false, text)

/-- The number that digits of a base spell, with underscores. -/
def inBase? (base : Nat) (text : Text) : Option Nat :=
  (plainDigits? base text).map fun digits => (Text.readNumber base digits).1

/-- The whole number that a word spells. -/
def whole? (word : Text) : Option Int :=
  let magnitude? :=
    match word with
    | '0' :: 'x' :: digits => inBase? 16 digits
    | '0' :: 'o' :: digits => inBase? 8 digits
    | '0' :: 'b' :: digits => inBase? 2 digits
    | word => (wholeDigits? (splitSign word).2).map Text.digitsValue
  magnitude?.bind fun n =>
    if (splitSign word).1 then (if n ≤ Text.signedRange then some (-(n : Int)) else none)
    else if n < Text.signedRange then some n
    else none

/-- Whether a character is a digit or stands between digits. -/
def isDigitChar (c : Char) : Bool :=
  c.isDigit || c == '_'

/-- The power of ten at the end of a number, if it has one. -/
def power? : Text → Option Int
  | [] => some 0
  | c :: rest =>
    if c == 'e' || c == 'E' then
      let (isNegative, digits) := splitSign rest
      (plainDigits? 10 digits).map fun digits =>
        let n : Int := Text.digitsValue digits
        if isNegative then -n else n
    else none

/-- The floating-point number that a word spells without its sign. A number too great to be held
counts only as a negative one. -/
def magnitude? (isNegative : Bool) (word : Text) : Option Binary64 := do
  let before ← wholeDigits? (word.takeWhile isDigitChar)
  let (behind, rest) ←
    match word.dropWhile isDigitChar with
    | [] => none
    | '.' :: rest =>
      (plainDigits? 10 (rest.takeWhile isDigitChar)).map fun behind =>
        (behind, rest.dropWhile isDigitChar)
    | rest => some ([], rest)
  let power ← power? rest
  let number := Binary64.ofDecimal isNegative (Text.digitsValue (before ++ behind))
    (power - behind.length)
  if number = .infinite false then none else some number

/-- The floating-point number that a word spells. -/
def real? (word : Text) : Option Binary64 :=
  let (isNegative, rest) := splitSign word
  if rest = "inf".toList then some (.infinite isNegative)
  else if rest = "nan".toList then some .nan
  else magnitude? isNegative rest

end SlimTemplate.Settings.Toml
