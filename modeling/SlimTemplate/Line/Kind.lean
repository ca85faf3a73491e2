import SlimTemplate.Text.Blank

/-!
# Kinds of lines

What a line of Slim is shows in its first characters. The rules are tried in a fixed order, and
the first that fits decides.

## Main definitions

* `LineKind`: the kinds of lines.
* `LineKind.of`: the kind of a trimmed line.
-/

namespace SlimTemplate

/-- The kinds of lines. -/
inductive LineKind where
  | doctype
  /-- A comment that shows in the page. -/
  | htmlComment
  /-- A comment of the template alone. -/
  | templateComment
  | code
  | output
  /-- The start of a block of code. -/
  | rubyBlock
  | textPipe
  /-- An element written by identifier or class alone. -/
  | shorthand
  | element
  | plain
  deriving DecidableEq, Repr

namespace LineKind

/-- Whether the line is a comment, visible or not. -/
def isComment : LineKind → Bool
  | htmlComment | templateComment => true
  | _ => false

/-- Whether the line opens an element. -/
def isElement : LineKind → Bool
  | element | shorthand => true
  | _ => false

/-- The word for a kind. -/
def name : LineKind → Text
  | doctype => "doctype".toList
  | htmlComment => "html-comment".toList
  | templateComment => "template-comment".toList
  | code => "code".toList
  | output => "output".toList
  | rubyBlock => "ruby-block".toList
  | textPipe => "text-pipe".toList
  | shorthand => "div-shorthand".toList
  | element => "element".toList
  | plain => "text".toList

/-- Whether a line begins with the word for a document type, in any case. -/
def startsDoctype (line : Text) : Bool :=
  Text.eqIgnoreAsciiCase (line.take 7) "doctype".toList

/-- The kind that the first character shows. -/
def ofFirst (c : Char) (rest : Text) : LineKind :=
  if c = '/' then
    match rest with
    | '!' :: _ => htmlComment
    | d :: _ => if Text.isBlank d then templateComment else plain
    | [] => plain
  else if c = '-' then code
  else if c = '=' then output
  else if Text.hasPrefix "ruby:".toList (c :: rest) then rubyBlock
  else if c = '|' then textPipe
  else if c = '#' || c = '.' then shorthand
  else if c.isAlpha then element
  else plain

/-- The kind of a trimmed line. -/
def of (line : Text) : LineKind :=
  if startsDoctype line then doctype
  else
    match line with
    | [] => plain
    | c :: rest => ofFirst c rest

end LineKind

end SlimTemplate
