import SlimTemplate.Html.Token.Basic

/-!
# Comments

A comment runs from `<!--` to the first `-->` or `--!>`, and may be closed by its first
characters, `>` or `->`. A comment that the text leaves open runs to the end, less the part of an
end that is already there. Markup that looks like a declaration and is none is a comment up to the
next `>`.

## Main definitions

* `Html.Comment.scan`: the data of a comment and what follows it.
* `Html.Comment.scanBogus`: the same for markup that is read as a comment.
-/

namespace SlimTemplate.Html.Comment

/-- The text before the first end of a comment, and the text after that end. -/
def untilClose? : Text → Option (Text × Text)
  | [] => none
  | '-' :: '-' :: '>' :: after => some ([], after)
  | '-' :: '-' :: '!' :: '>' :: after => some ([], after)
  | c :: text => (untilClose? text).map fun (data, after) => (c :: data, after)

/-- The data of a comment that the text leaves open: a beginning of its end is no data. -/
def dropOpenEnd (text : Text) : Text :=
  match text.reverse with
  | '!' :: '-' :: '-' :: data => data.reverse
  | '-' :: '-' :: data => data.reverse
  | '-' :: data => data.reverse
  | data => data.reverse

/-- Reads a comment whose `<!--` has been read: its data and what follows it. -/
def scan (text : Text) : Text × Text :=
  match text with
  | '>' :: after => ([], after)
  | '-' :: '>' :: after => ([], after)
  | text =>
    match untilClose? text with
    | some (data, after) => (replaceNul data, after)
    | none => (replaceNul (dropOpenEnd text), [])

/-- Reads markup as a comment up to the next `>`: its data and what follows it. -/
def scanBogus (text : Text) : Text × Text :=
  (replaceNul (text.takeWhile (· ≠ '>')), (text.dropWhile (· ≠ '>')).drop 1)

theorem length_untilClose? {text data after : Text} (h : untilClose? text = some (data, after)) :
    after.length ≤ text.length := by
  fun_induction untilClose? text generalizing data with
  | case1 => simp at h
  | case2 => simp_all; omega
  | case3 => simp_all; omega
  | case4 c text _ _ ih =>
    obtain ⟨⟨d, a⟩, hda, heq⟩ := Option.map_eq_some_iff.1 h
    simp only [Prod.mk.injEq] at heq
    obtain ⟨-, rfl⟩ := heq
    have := ih hda
    simp only [List.length_cons]
    omega

theorem length_scan_le (text : Text) : (scan text).2.length ≤ text.length := by
  unfold scan
  split
  · simp
  · simp; omega
  · split
    · next h => exact length_untilClose? h
    · simp

theorem length_scanBogus_le (text : Text) : (scanBogus text).2.length ≤ text.length := by
  have := (List.dropWhile_sublist (l := text) (fun c => decide (c ≠ '>'))).length_le
  simp only [scanBogus, List.length_drop]
  omega

end SlimTemplate.Html.Comment
