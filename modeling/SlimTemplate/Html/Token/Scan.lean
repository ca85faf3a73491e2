import SlimTemplate.Html.Token.Comment
import SlimTemplate.Html.Token.Doctype
import SlimTemplate.Html.Token.RawText
import SlimTemplate.Html.Token.Tag

/-!
# Reading tokens

The tokens at the start of a text: a run of characters up to the next `<`, or the one thing that a
`<` begins. A `<` that begins nothing is a character.

## Main definitions

* `Html.scanText`: a run of characters.
* `Html.scanMarkup`: what a `<` begins.
* `Html.scan`: the tokens at the start of a text, and the rest.

## Main statements

* `Html.length_scan_lt`: reading a text that is not empty leaves a shorter one.
-/

namespace SlimTemplate.Html

/-- A comment and what follows it. -/
def commentToken (read : Text × Text) : List Token × Text :=
  ([.comment read.1], read.2)

/-- What `<!` begins. Sections of character data are read in foreign content only. -/
def scanDeclaration (inForeign : Bool) (text : Text) : List Token × Text :=
  match Text.dropPrefix? "--".toList text with
  | some rest => commentToken (Comment.scan rest)
  | none =>
    if Text.toAsciiLower (text.take 7) = "doctype".toList then
      let (lenient, rest) := scanDoctype (text.drop 7)
      ([.doctype lenient], rest)
    else
      match if inForeign then Text.dropPrefix? "[CDATA[".toList text else none with
      | some rest =>
        match Text.cutAt? "]]>".toList rest with
        | some (data, rest) => (chars data, rest)
        | none => (chars rest, [])
      | none => commentToken (Comment.scanBogus text)

/-- A tag and what follows it; a tag left open takes the rest of the text with it. -/
def tagToken (kind : TagKind) (text : Text) : List Token × Text :=
  match scanTag? kind text with
  | some (tag, rest) => ([.tag tag], rest)
  | none => ([], [])

/-- What `</` begins. -/
def scanEndTag : Text → List Token × Text
  | [] => (chars "</".toList, [])
  | '>' :: rest => ([.fault], rest)
  | c :: rest =>
    if c.isAlpha then tagToken .stop (c :: rest) else commentToken (Comment.scanBogus (c :: rest))

/-- What a `<` begins. -/
def scanMarkup (inForeign : Bool) : Text → List Token × Text
  | [] => (chars "<".toList, [])
  | '!' :: rest => scanDeclaration inForeign rest
  | '/' :: rest => scanEndTag rest
  | '?' :: rest => commentToken (Comment.scanBogus ('?' :: rest))
  | c :: rest => if c.isAlpha then tagToken .start (c :: rest) else (chars "<".toList, c :: rest)

/-- A run of characters up to the next `<`, its references replaced. -/
def scanText (text : Text) : List Token × Text :=
  (charsMeant (text.takeWhile (· ≠ '<')), text.dropWhile (· ≠ '<'))

/-- The tokens at the start of a text, and the rest. -/
def scan (inForeign : Bool) : Text → List Token × Text
  | [] => ([], [])
  | c :: rest => if c = '<' then scanMarkup inForeign rest else scanText (c :: rest)

theorem length_scanDeclaration_le (inForeign : Bool) (text : Text) :
    (scanDeclaration inForeign text).2.length ≤ text.length := by
  unfold scanDeclaration
  split
  · next rest h =>
    exact Nat.le_trans (Comment.length_scan_le rest) (Text.length_dropPrefix? h)
  · split
    · have := length_scanDoctype_le (text.drop 7)
      simp only [List.length_drop] at this
      simp only
      omega
    · split
      · next rest h =>
        have h1 : rest.length ≤ text.length := by
          split at h
          · exact Text.length_dropPrefix? h
          · simp at h
        split
        · next data after h2 => exact Nat.le_trans (Text.length_cutAt? h2) h1
        · simp
      · exact Comment.length_scanBogus_le text

theorem length_tagToken_le (kind : TagKind) (text : Text) :
    (tagToken kind text).2.length ≤ text.length := by
  unfold tagToken
  split
  · next h => exact Nat.le_of_lt (length_scanTag? h)
  · simp

theorem length_scanEndTag_le (text : Text) : (scanEndTag text).2.length ≤ text.length := by
  unfold scanEndTag
  split
  · simp
  · simp
  · split
    · exact length_tagToken_le _ _
    · exact Comment.length_scanBogus_le _

theorem length_scanMarkup_le (inForeign : Bool) (text : Text) :
    (scanMarkup inForeign text).2.length ≤ text.length := by
  unfold scanMarkup
  split
  · simp
  · exact Nat.le_succ_of_le (length_scanDeclaration_le _ _)
  · exact Nat.le_succ_of_le (length_scanEndTag_le _)
  · exact Comment.length_scanBogus_le _
  · split
    · exact length_tagToken_le _ _
    · simp

/-- Reading a text that is not empty leaves a shorter one. -/
theorem length_scan_lt (inForeign : Bool) {text : Text} (h : text ≠ []) :
    (scan inForeign text).2.length < text.length := by
  cases text with
  | nil => contradiction
  | cons c rest =>
    by_cases hc : c = '<'
    · have := length_scanMarkup_le inForeign rest
      simp only [scan, if_pos hc, List.length_cons]
      omega
    · have := length_dropWhile_le (fun d => decide (d ≠ '<')) rest
      simp only [scan, if_false, scanText, List.dropWhile_cons, ne_eq, hc, not_false_eq_true,
        decide_true, if_true, List.length_cons]
      simp only [ne_eq] at this
      omega

end SlimTemplate.Html
