import SlimTemplate.Settings.Toml.Blank
import SlimTemplate.Text.Number

/-!
# Dates and times

A moment is a date, a time of day, or both with a `T` between them and perhaps the distance to
universal time. As a setting it is a text in its plain form: capital letters, at most nine digits
of a second, and no zeros at the end of these.

## Main definitions

* `Settings.Toml.moment?`: the moment that a word spells, in its plain form.
-/

namespace SlimTemplate.Settings.Toml

/-- The text of a number from `least` to `most` in `count` digits, with the number. -/
def readPart? (count least most : Nat) (text : Text) : Read (Nat × Text) :=
  let digits := text.take count
  let number := Text.digitsValue digits
  if digits.length = count && digits.all Char.isDigit && least ≤ number && number ≤ most then
    some ((number, digits), text.drop count)
  else none

/-- The text after a character that has to be there. -/
def expect? (c : Char) : Text → Option Text
  | d :: rest => if c = d then some rest else none
  | [] => none

/-- The number of days that a month has in a year. -/
def daysIn (year month : Nat) : Nat :=
  if month = 2 then
    if year % 4 = 0 && (year % 100 ≠ 0 || year % 400 = 0) then 29 else 28
  else if month = 4 || month = 6 || month = 9 || month = 11 then 30
  else 31

/-- A date, and the text after it. -/
def readDate? (text : Text) : Option (Text × Text) := do
  let ((year, yearText), rest) ← readPart? 4 0 9999 text
  let ((month, monthText), rest) ← readPart? 2 1 12 (← expect? '-' rest)
  let ((_, dayText), rest) ← readPart? 2 1 (daysIn year month) (← expect? '-' rest)
  return (Text.joinWith ['-'] [yearText, monthText, dayText], rest)

/-- The parts of a second, after a point. -/
def readFraction? : Text → Read Text
  | '.' :: rest =>
    let digits := rest.takeWhile Char.isDigit
    let kept := ((digits.take 9).reverse.dropWhile (· == '0')).reverse
    if digits.isEmpty then none
    else some (if kept.isEmpty then [] else '.' :: kept, rest.dropWhile Char.isDigit)
  | rest => some ([], rest)

/-- A time of day, and the text after it. -/
def readTime? (text : Text) : Option (Text × Text) := do
  let ((_, hour), rest) ← readPart? 2 0 23 text
  let ((_, minute), rest) ← readPart? 2 0 59 (← expect? ':' rest)
  let ((_, second), rest) ← readPart? 2 0 60 (← expect? ':' rest)
  let (fraction, rest) ← readFraction? rest
  return (Text.joinWith [':'] [hour, minute, second] ++ fraction, rest)

/-- The distance to universal time, if one is given up to the end of the word. No distance has a
plus sign. -/
def offset? : Text → Option Text
  | [] => some []
  | ['Z'] => some ['Z']
  | ['z'] => some ['Z']
  | sign :: rest => do
    if sign ≠ '+' && sign ≠ '-' then none
    let ((hours, hour), rest) ← readPart? 2 0 23 rest
    let ((minutes, minute), rest) ← readPart? 2 0 59 (← expect? ':' rest)
    if !rest.isEmpty then none
    let sign := if hours = 0 && minutes = 0 then '+' else sign
    return sign :: hour ++ ':' :: minute

/-- Whether a word spells a date. -/
def isDate (word : Text) : Bool :=
  match readDate? word with
  | some (_, []) => true
  | _ => false

/-- The moment that a word spells, in its plain form. -/
def moment? (word : Text) : Option Text :=
  match readDate? word with
  | some (date, []) => some date
  | some (date, c :: rest) => do
    if c ≠ 'T' && c ≠ 't' then none
    let (time, rest) ← readTime? rest
    return date ++ 'T' :: time ++ (← offset? rest)
  | none =>
    match readTime? word with
    | some (time, []) => some time
    | _ => none

end SlimTemplate.Settings.Toml
