import SlimTemplate.Text.Number

/-!
# Floating-point numbers

A floating-point number of 64 bits is a significand of at most 53 bits times a power of two, with
a sign. All is computed in whole numbers: a decimal becomes the nearest number, and a number is
written with the fewest decimal digits that become it again.

## Main definitions

* `Binary64`: the numbers.
* `Binary64.ofDecimal`: the number nearest to a decimal.
* `Binary64.toSize`: the nearest size.
* `Binary64.text`: a number in decimal digits.
-/

namespace SlimTemplate

/-- The numbers that 64 bits of floating point hold. -/
inductive Binary64 where
  /-- The number `significand * 2 ^ exponent` with a sign. -/
  | finite (isNegative : Bool) (significand : Nat) (exponent : Int)
  | infinite (isNegative : Bool)
  | nan
  deriving DecidableEq, Repr

namespace Binary64

/-- The least exponent of a number. -/
def leastExponent : Int :=
  -1074

/-- The greatest exponent of a number. -/
def greatestExponent : Int :=
  971

/-- The least significand of 53 bits. -/
def leastFull : Nat :=
  0x10000000000000

/-- A quotient rounded to the nearest whole number; a half goes to the even one. -/
def divideToEven (num den : Nat) : Nat :=
  let quotient := num / den
  let twice := 2 * (num % den)
  if twice > den || (twice == den && quotient % 2 == 1) then quotient + 1 else quotient

/-- The fraction `num / den` divided by a power of two. -/
def unscale (exponent : Int) (num den : Nat) : Nat × Nat :=
  let power := Nat.pow 2 exponent.natAbs
  if exponent < 0 then (num * power, den) else (num, den * power)

/-- The exponent that gives a fraction a significand of 53 bits, unless it is below the least. -/
def exponentOf (num den : Nat) : Int :=
  -- Divided by this power of two, the fraction is above `2 ^ 51` and below `2 ^ 53`.
  let near : Int := num.log2 - den.log2 - 52
  let (n, d) := unscale near num den
  max leastExponent (if n / d < leastFull then near - 1 else near)

/-- The number nearest to a positive fraction, with a sign. -/
def ofFraction (isNegative : Bool) (num den : Nat) : Binary64 :=
  let exponent := exponentOf num den
  let (n, d) := unscale exponent num den
  let rounded := divideToEven n d
  -- Rounding up may lead to the next power of two.
  let (significand, exponent) :=
    if rounded = 2 * leastFull then (leastFull, exponent + 1) else (rounded, exponent)
  if exponent > greatestExponent then infinite isNegative
  else finite isNegative significand exponent

/-- The number nearest to `number * 10 ^ exponent`, with a sign. -/
def ofDecimal (isNegative : Bool) (number : Nat) (exponent : Int) : Binary64 :=
  let digitsBeforePoint := (Text.ofNat number).length + exponent
  if number = 0 || digitsBeforePoint < -330 then finite isNegative 0 leastExponent
  else if digitsBeforePoint > 310 then infinite isNegative
  else if exponent < 0 then ofFraction isNegative number (Nat.pow 10 exponent.natAbs)
  else ofFraction isNegative (number * Nat.pow 10 exponent.natAbs) 1

/-- Whether a number is zero, of either sign. -/
def isZero : Binary64 → Bool
  | finite _ significand _ => significand == 0
  | _ => false

/-- The nearest size; a half is rounded up. What is negative or no number gives zero, and what is
too great the largest size. -/
def toSize : Binary64 → Nat
  | finite false significand exponent =>
    let (n, d) := unscale (-exponent) significand 1
    min Text.maxSize ((2 * n + d) / (2 * d))
  | infinite false => Text.maxSize
  | _ => 0

/-- The lowest decimal place that is looked at, counted below the point. No number needs a lower
one. -/
def lowestPlace : Nat :=
  345

/-- The multiple of `step` nearest to `value` within an interval, divided by `step`. Of two that
are equally near the greater is taken. -/
def nearestMultiple? (low value high : Nat) (isClosed : Bool) (step : Nat) : Option Nat :=
  let below := value / step
  let neighbours :=
    if 2 * (value % step) < step then [below, below + 1] else [below + 1, below]
  neighbours.find? fun n =>
    let multiple := n * step
    if isClosed then low ≤ multiple && multiple ≤ high else low < multiple && multiple < high

/-- The shortest decimal, as digits and a power of ten, that has a positive number as its nearest.
The numbers that lie nearest to it reach halfway to its neighbours, and to the halves themselves
when its significand is even. -/
def shortest (significand : Nat) (exponent : Int) : Nat × Int :=
  -- Everything is counted in one unit, a common part of the quarters of all steps between
  -- numbers and of all decimal places.
  let quarter := Nat.pow 2 (exponent - leastExponent).toNat * Nat.pow 10 lowestPlace
  let value := 4 * significand * quarter
  -- Below a power of two the numbers lie twice as close.
  let isTight := significand == leastFull && leastExponent < exponent
  let low := value - (if isTight then 1 else 2) * quarter
  let places := (List.range (lowestPlace + 310)).reverse
  let found := places.findSome? fun (place : Nat) =>
    (nearestMultiple? low value (value + 2 * quarter) (significand % 2 == 0)
      (Nat.pow 2 1076 * Nat.pow 10 place)).map fun n => (n, (place : Int) - lowestPlace)
  found.getD (0, 0)

/-- The number `digits * 10 ^ place` written without a power of ten. -/
def positional (digits : Text) (place : Int) : Text :=
  if place < 0 then
    let behind := place.natAbs
    let digits := List.replicate (behind + 1 - digits.length) '0' ++ digits
    let before := digits.length - behind
    digits.take before ++ '.' :: digits.drop before
  else digits ++ List.replicate place.natAbs '0'

/-- A minus sign for what is negative. -/
def sign (isNegative : Bool) : Text :=
  if isNegative then ['-'] else []

/-- A number in decimal digits, as few as have it as their nearest. -/
def text : Binary64 → Text
  | finite isNegative significand exponent =>
    let (digits, place) :=
      if significand = 0 then (0, 0) else shortest significand exponent
    sign isNegative ++ positional (Text.ofNat digits) place
  | infinite isNegative => sign isNegative ++ "inf".toList
  | nan => "NaN".toList

end Binary64

end SlimTemplate
