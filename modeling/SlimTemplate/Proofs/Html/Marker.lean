import SlimTemplate.Html.Arena
import SlimTemplate.Proofs.Directive.Escape
import SlimTemplate.Proofs.Html.StartTag

/-!
# Markers read as HTML

The start tag that stands for a block directive is read as one start tag, and the value of its only
attribute is the code that was escaped in it.

## Main definitions

* `Html.markerTag`: the start tag of a template marked with code.

## Main statements

* `Html.scan_openingTag`: what is written for a marker is read as its start tag.
-/

namespace SlimTemplate.Html

open Directive (escapeCode openingTag)

theorem valueText_escapeCode {code : Text} (hnul : '\x00' ∉ code) :
    valueText (escapeCode code) = code := by
  rw [valueText, replaceNul_eq (Directive.not_mem_escapeCode (by decide) hnul),
    Reference.decode_escapeCode]

/-- The start tag of a template marked with code. -/
def markerTag (code : Text) : Tag :=
  ⟨.start, "template", [(Arena.markerKey, code)], false⟩

/-- What stands behind the name of the tag of a marker. -/
theorem readAttributes?_openingTag {code : Text} (hnul : '\x00' ∉ code) (rest : Text) :
    readAttributes? (" data-slim-directive=".toList ++
        '"' :: (escapeCode code ++ '"' :: '>' :: rest)) =
      some ([(Arena.markerKey, code)], false, rest) := by
  have hread : readAttribute? 'd'
      ("ata-slim-directive=".toList ++ '"' :: (escapeCode code ++ '"' :: '>' :: rest)) =
        some ((Arena.markerKey, code), '>' :: rest) := by
    have hvalue := readValue?_quote (.inl rfl) (Directive.quote_not_mem_escapeCode code)
      ('>' :: rest)
    rw [valueText_escapeCode hnul] at hvalue
    show (readValue? ('"' :: (escapeCode code ++ '"' :: '>' :: rest))).map _ = _
    rw [hvalue]
    rfl
  rw [readAttributes?_of_attribute rfl (by decide) (by decide) hread, readAttributes?_of_gt rfl]
  rfl

/-- The start tag of a marker is read with its code as the only attribute, whatever follows. -/
theorem scan_openingTag {code : Text} (hnul : '\x00' ∉ code) (inForeign : Bool) (rest : Text) :
    scan inForeign (openingTag code ++ rest) = ([.tag (markerTag code)], rest) := by
  have hname : ∀ c ∈ "template".toList, (!endsName c) = true := Text.forall_of_all (by decide)
  have hspace : (!endsName ' ') = false := by decide
  have hattributes := readAttributes?_openingTag hnul rest
  have htag : scanTag? .start ("template".toList ++ ' ' :: ("data-slim-directive=".toList ++
      '"' :: (escapeCode code ++ '"' :: '>' :: rest))) = some (markerTag code, rest) := by
    have hlower : tagText "template".toList = "template".toList := by decide
    have hdrop : ' ' :: ("data-slim-directive=".toList ++
        '"' :: (escapeCode code ++ '"' :: '>' :: rest)) = " data-slim-directive=".toList ++
        '"' :: (escapeCode code ++ '"' :: '>' :: rest) := rfl
    rw [scanTag?, takeWhile_until hname hspace, dropWhile_until hname hspace, hlower, hdrop,
      hattributes, Option.map_some, String.ofList_toList]
    rfl
  have hstart : "<template data-slim-directive=\"".toList =
      '<' :: ("template".toList ++ ' ' :: ("data-slim-directive=".toList ++ ['"'])) := by
    decide
  have hend : "\">".toList = ['"', '>'] := by decide
  have hsource : openingTag code ++ rest = '<' :: ("template".toList ++ ' ' ::
      ("data-slim-directive=".toList ++ '"' :: (escapeCode code ++ '"' :: '>' :: rest))) := by
    have happend : ∀ name key value : Text,
        '<' :: (name ++ ' ' :: (key ++ ['"'])) ++ value ++ ['"', '>'] ++ rest =
          '<' :: (name ++ ' ' :: (key ++ '"' :: (value ++ '"' :: '>' :: rest))) := by
      simp
    unfold openingTag
    rw [hstart, hend, happend]
  have hscan : scan inForeign (openingTag code ++ rest) =
      tagToken .start ("template".toList ++ ' ' ::
        ("data-slim-directive=".toList ++ '"' :: (escapeCode code ++ '"' :: '>' :: rest))) := by
    rw [hsource]
    rfl
  rw [hscan, tagToken, htag]

end SlimTemplate.Html
