import SlimTemplate.Html.Token.Basic

/-!
# Document types

A document type decides one thing for the builder: whether the lenient rules of old documents
hold. They do unless the declaration is complete, names `html`, and its identifiers are not among
those of old documents.

## Main definitions

* `Html.DoctypeBody`: the parts of a declaration.
* `Html.DoctypeBody.isLenient`: whether the lenient rules hold.
-/

namespace SlimTemplate.Html

/-- The parts of a declaration of a document type. -/
structure DoctypeBody where
  name : Text
  publicId : Option Text
  systemId : Option Text
  isBroken : Bool

namespace DoctypeBody

/-- A quoted text at the start: its content and what follows, or nothing when the quote stays
open. -/
def quoted? : Text → Option (Text × Text)
  | [] => none
  | q :: text =>
    if (q = '"' || q = '\'') && text.contains q then
      some (text.takeWhile (· ≠ q), (text.dropWhile (· ≠ q)).drop 1)
    else none

/-- The system identifier at the start of a text that may also end. -/
def readSystem (name : Text) (publicId : Option Text) (text : Text) : DoctypeBody :=
  match quoted? (text.dropWhile isSpace) with
  | some (systemId, _) => ⟨name, publicId, some systemId, false⟩
  | none => ⟨name, publicId, none, true⟩

/-- The parts of a declaration, from the text between `doctype` and the closing `>`. -/
def ofText (text : Text) : DoctypeBody :=
  let text := text.dropWhile isSpace
  let name := Text.toAsciiLower (text.takeWhile fun c => !isSpace c)
  let rest := (text.dropWhile fun c => !isSpace c).dropWhile isSpace
  let keyword := Text.toAsciiLower (rest.take 6)
  if name.isEmpty then ⟨name, none, none, true⟩
  else if rest.isEmpty then ⟨name, none, none, false⟩
  else if keyword = "public".toList then
    match quoted? ((rest.drop 6).dropWhile isSpace) with
    | none => ⟨name, none, none, true⟩
    | some (publicId, after) =>
      if (after.dropWhile isSpace).isEmpty then ⟨name, some publicId, none, false⟩
      else readSystem name (some publicId) after
  else if keyword = "system".toList then readSystem name none (rest.drop 6)
  else ⟨name, none, none, true⟩

/-- The public identifiers of old documents, in small letters. -/
def lenientPublicIds : List Text :=
  ["-//w3o//dtd w3 html strict 3.0//en//", "-/w3c/dtd html 4.0 transitional/en", "html"].map
    String.toList

/-- The beginnings of public identifiers of old documents, in small letters. -/
def lenientPublicStarts : List Text :=
  ["+//silmaril//dtd html pro v0r11 19970101//", "-//as//dtd html 3.0 aswedit + extensions//",
   "-//advasoft ltd//dtd html 3.0 aswedit + extensions//", "-//ietf//dtd html 2.0 level 1//",
   "-//ietf//dtd html 2.0 level 2//", "-//ietf//dtd html 2.0 strict level 1//",
   "-//ietf//dtd html 2.0 strict level 2//", "-//ietf//dtd html 2.0 strict//",
   "-//ietf//dtd html 2.0//", "-//ietf//dtd html 2.1e//", "-//ietf//dtd html 3.0//",
   "-//ietf//dtd html 3.2 final//", "-//ietf//dtd html 3.2//", "-//ietf//dtd html 3//",
   "-//ietf//dtd html level 0//", "-//ietf//dtd html level 1//", "-//ietf//dtd html level 2//",
   "-//ietf//dtd html level 3//", "-//ietf//dtd html strict level 0//",
   "-//ietf//dtd html strict level 1//", "-//ietf//dtd html strict level 2//",
   "-//ietf//dtd html strict level 3//", "-//ietf//dtd html strict//", "-//ietf//dtd html//",
   "-//metrius//dtd metrius presentational//",
   "-//microsoft//dtd internet explorer 2.0 html strict//",
   "-//microsoft//dtd internet explorer 2.0 html//",
   "-//microsoft//dtd internet explorer 2.0 tables//",
   "-//microsoft//dtd internet explorer 3.0 html strict//",
   "-//microsoft//dtd internet explorer 3.0 html//",
   "-//microsoft//dtd internet explorer 3.0 tables//", "-//netscape comm. corp.//dtd html//",
   "-//netscape comm. corp.//dtd strict html//", "-//o'reilly and associates//dtd html 2.0//",
   "-//o'reilly and associates//dtd html extended 1.0//",
   "-//o'reilly and associates//dtd html extended relaxed 1.0//",
   "-//softquad software//dtd hotmetal pro 6.0::19990601::extensions to html 4.0//",
   "-//softquad//dtd hotmetal pro 4.0::19971010::extensions to html 4.0//",
   "-//spyglass//dtd html 2.0 extended//", "-//sq//dtd html 2.0 hotmetal + extensions//",
   "-//sun microsystems corp.//dtd hotjava html//",
   "-//sun microsystems corp.//dtd hotjava strict html//",
   "-//w3c//dtd html 3 1995-03-24//", "-//w3c//dtd html 3.2 draft//",
   "-//w3c//dtd html 3.2 final//", "-//w3c//dtd html 3.2//", "-//w3c//dtd html 3.2s draft//",
   "-//w3c//dtd html 4.0 frameset//", "-//w3c//dtd html 4.0 transitional//",
   "-//w3c//dtd html experimental 19960712//", "-//w3c//dtd html experimental 970421//",
   "-//w3c//dtd w3 html//", "-//w3o//dtd w3 html 3.0//", "-//webtechs//dtd mozilla html 2.0//",
   "-//webtechs//dtd mozilla html//"].map String.toList

/-- The beginnings of public identifiers that are those of old documents where no system
identifier follows. -/
def lenientBareStarts : List Text :=
  ["-//w3c//dtd html 4.01 frameset//", "-//w3c//dtd html 4.01 transitional//"].map String.toList

/-- Whether the declaration asks for the lenient rules of old documents. -/
def isLenient (d : DoctypeBody) : Bool :=
  let publicId := d.publicId.map Text.toAsciiLower
  let systemId := d.systemId.map Text.toAsciiLower
  let startsIn (starts : List Text) : Bool :=
    match publicId with
    | some id => starts.any fun start => Text.hasPrefix start id
    | none => false
  d.isBroken || d.name ≠ "html".toList ||
    (match publicId with
      | some id => lenientPublicIds.contains id
      | none => false) ||
    startsIn lenientPublicStarts ||
    systemId = some "http://www.ibm.com/data/dtd/v11/ibmxhtml1-transitional.dtd".toList ||
    (systemId.isNone && startsIn lenientBareStarts)

end DoctypeBody

/-- Reads a document type after its keyword: whether it is lenient, and what follows it. One that
the text leaves open is lenient. -/
def scanDoctype (text : Text) : Bool × Text :=
  if text.contains '>' then
    ((DoctypeBody.ofText (text.takeWhile (· ≠ '>'))).isLenient,
      (text.dropWhile (· ≠ '>')).drop 1)
  else (true, [])

theorem length_scanDoctype_le (text : Text) : (scanDoctype text).2.length ≤ text.length := by
  unfold scanDoctype
  split
  · have := (List.dropWhile_sublist (l := text) (fun c => decide (c ≠ '>'))).length_le
    simp only [List.length_drop]
    omega
  · simp

end SlimTemplate.Html
