import SlimTemplate.Settings.Toml.Blank
import SlimTemplate.Text.Number

/-!
# Quoted texts and keys

A text in double quotes may name characters by a backslash; in single quotes all characters stand
for themselves. Between three quotes of either kind a text may have several lines. The parts of a
key are bare or in quotes, with dots between them.

## Main definitions

* `Settings.Toml.readText?`: a text in quotes.
* `Settings.Toml.readKeys?`: a key with dots.
-/

namespace SlimTemplate.Settings.Toml

/-- The character of a number in `count` hexadecimal digits. -/
def readCode? (count : Nat) (text : Text) : Read Char :=
  let (number, read) := Text.readNumber 16 (text.take count)
  if read < count || number > 0x10FFFF || (0xD800 ≤ number && number ≤ 0xDFFF) then none
  else some (Char.ofNat number, text.drop count)

/-- The character after a backslash. -/
def readEscape? : Text → Read Char
  | 'b' :: rest => some ('\x08', rest)
  | 't' :: rest => some ('\t', rest)
  | 'n' :: rest => some ('\n', rest)
  | 'f' :: rest => some ('\x0c', rest)
  | 'r' :: rest => some ('\r', rest)
  | '"' :: rest => some ('"', rest)
  | '\\' :: rest => some ('\\', rest)
  | 'u' :: rest => readCode? 4 rest
  | 'U' :: rest => readCode? 8 rest
  | _ => none

/-- A text read further, with characters put before it. -/
def before (start : Text) (read : Read Text) : Read Text :=
  read.map fun (more, rest) => (start ++ more, rest)

/-- A text on one line up to its closing double quote, within `fuel` characters. -/
def readQuoted? : (fuel : Nat) → Text → Read Text
  | 0, _ => none
  | _ + 1, [] => none
  | _ + 1, '"' :: rest => some ([], rest)
  | fuel + 1, '\\' :: rest =>
    (readEscape? rest).bind fun (c, rest) => before [c] (readQuoted? fuel rest)
  | fuel + 1, c :: rest => if isControl c then none else before [c] (readQuoted? fuel rest)

/-- A text on one line up to its closing single quote. -/
def readLiteral? : Text → Read Text
  | [] => none
  | '\'' :: rest => some ([], rest)
  | c :: rest => if isControl c then none else before [c] (readLiteral? rest)

/-- What follows a backslash at the end of a line: the next character that is not blank. -/
def skipFold? (text : Text) : Option Text :=
  (lineEnd? (skipGap text)).map skipBlank

/-- A text up to the three quotes that close it, within `fuel` characters. Up to two more of the
quotes may stand before those. Only in double quotes a backslash is special. -/
def readBlock? (quote : Char) : (fuel : Nat) → Text → Read Text
  | 0, _ => none
  | _ + 1, [] => none
  | fuel + 1, c :: rest =>
    if c = quote then
      let count := 1 + (rest.takeWhile (· == quote)).length
      let rest := rest.drop (count - 1)
      if count < 3 then before (List.replicate count quote) (readBlock? quote fuel rest)
      else if count ≤ 5 then some (List.replicate (count - 3) quote, rest)
      else none
    else if c = '\\' && quote == '"' then
      match skipFold? rest with
      | some rest => readBlock? quote fuel rest
      | none =>
        (readEscape? rest).bind fun (c, rest) => before [c] (readBlock? quote fuel rest)
    else
      match lineEnd? (c :: rest) with
      | some rest => before ['\n'] (readBlock? quote fuel rest)
      | none => if isControl c then none else before [c] (readBlock? quote fuel rest)

/-- A text over several lines, after the three quotes that open it. A line end right behind these
does not count. -/
def readLinesIn? (quote : Char) (text : Text) : Read Text :=
  readBlock? quote (text.length + 1) ((lineEnd? text).getD text)

/-- A text on one line, in quotes of either kind. -/
def readLine? : Text → Read Text
  | '"' :: rest => readQuoted? (rest.length + 1) rest
  | '\'' :: rest => readLiteral? rest
  | _ => none

/-- A text in quotes of either kind, one or three. -/
def readText? : Text → Read Text
  | '"' :: '"' :: '"' :: rest => readLinesIn? '"' rest
  | '\'' :: '\'' :: '\'' :: rest => readLinesIn? '\'' rest
  | text => readLine? text

/-- Whether a character may stand in a key without quotes. -/
def isKeyChar (c : Char) : Bool :=
  c.isAlphanum || c == '_' || c == '-'

/-- A part of a key, bare or in quotes. -/
def readKey? (text : Text) : Read Text :=
  let name := text.takeWhile isKeyChar
  if name.isEmpty then readLine? text else some (name, text.dropWhile isKeyChar)

/-- A key of at most `most` parts with dots between them, and the gap after it. -/
def readKeys? : (most : Nat) → Text → Read (List Text)
  | 0, _ => none
  | most + 1, text =>
    (readKey? (skipGap text)).bind fun (name, rest) =>
      match skipGap rest with
      | '.' :: rest => (readKeys? most rest).map fun (more, rest) => (name :: more, rest)
      | rest => some ([name], rest)

end SlimTemplate.Settings.Toml
