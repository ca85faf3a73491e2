import SlimTemplate.Proofs.Repair.Written
import SlimTemplate.Proofs.Writer.Whole

/-!
# Tag lines as a repair sees them

A tag line that is read as one head is a bare head. With text behind it, the text is all that
stands behind the head, so it starts with a slash only if it was written so.

## Main statements

* `Repair.headAndText?_opening`: a bare tag line has no text behind its head.
* `Repair.slashBehindHead?_inline`: text that does not start with one slash is not repaired behind
  a tag.
-/

namespace SlimTemplate

namespace Repair

open Markup

variable {e : Element} {text : Text}

/-- A bare tag line has no text behind its head. -/
theorem headAndText?_opening (h : e.isWhole = true) : headAndText? e.opening = none := by
  obtain ⟨head, hscan, hremainder, -⟩ := e.scan?_of_isWhole h
  by_contra hne
  obtain ⟨⟨written, text⟩, hsome⟩ := Option.ne_none_iff_exists'.1 hne
  obtain ⟨scanned, c, rest, hscanned, -, hc, hblank, -⟩ := headAndText?_eq_some hsome
  obtain rfl := Option.some.inj (hscan.symm.trans hscanned)
  rw [hremainder c (by rw [hc]; rfl)] at hblank
  cases hblank

theorem startsWithOneSlash_cons (c : Char) (text : Text) :
    startsWithOneSlash (c :: text) = (decide (c = '/') && decide (text.head? ≠ some '/')) := by
  unfold startsWithOneSlash
  split
  · next h =>
    obtain ⟨rfl, rfl⟩ := List.cons.inj h
    rfl
  · next hnot h =>
    obtain ⟨rfl, rfl⟩ := List.cons.inj h
    have hhead : text.head? ≠ some '/' := by
      intro hhead
      obtain ⟨rest, hrest⟩ := List.head?_eq_some_iff.1 hhead
      exact hnot rest hrest
    simp [hhead]
  · next hnot =>
    have hc : c ≠ '/' := fun hc => hnot text (hc ▸ rfl)
    simp [hc]

/-- Blanks at the end of a text do not decide whether it starts with one slash. -/
theorem startsWithOneSlash_cons_trimEnd (c : Char) (text : Text) :
    startsWithOneSlash (c :: Text.trimEnd text) = startsWithOneSlash (c :: text) := by
  rw [startsWithOneSlash_cons, startsWithOneSlash_cons]
  simp only [ne_eq, Text.head?_trimEnd_iff (c := '/') (by decide)]

/-- Text that does not start with one slash is not repaired behind a tag. -/
theorem slashBehindHead?_inline (h : e.isWhole = true) {c : Char} (hc : Text.isBlank c = false)
    (hslash : startsWithOneSlash (c :: text) = false) :
    slashBehindHead? (Text.trim (e.opening ++ ' ' :: c :: text)) = none := by
  obtain ⟨head, hscan, hremainder, hbehind⟩ := e.scan?_of_isWhole h
  obtain ⟨d, rest, hopening, hd, -⟩ := e.opening_eq_cons_of_isWhole h
  have hcontent : Text.trim (e.opening ++ ' ' :: c :: text) =
      e.opening ++ ' ' :: c :: Text.trimEnd text := by
    have hend := Text.trimEnd_append_cons hc (rest ++ [' ']) text
    rw [List.append_assoc, List.append_assoc] at hend
    rw [hopening, List.cons_append, Text.trim_cons_of_not_isBlank hd]
    exact congrArg (d :: ·) hend
  by_contra hne
  obtain ⟨⟨written, behind⟩, hsome⟩ := Option.ne_none_iff_exists'.1 hne
  obtain ⟨hsome, hone⟩ := Option.filter_eq_some_iff.1 hsome
  change startsWithOneSlash behind = true at hone
  rw [hcontent] at hsome
  obtain ⟨scanned, b, more, hscanned, -, hb, hblank, rfl⟩ := headAndText?_eq_some hsome
  obtain rfl := Option.some.inj ((hbehind _).symm.trans hscanned)
  -- The head is all of the tag, since what it leaves does not begin with a blank.
  cases hleft : head.remainder with
  | cons first left =>
    rw [hleft, List.cons_append, List.cons.injEq] at hb
    rw [hremainder b (by rw [hleft, hb.1]; rfl)] at hblank
    cases hblank
  | nil =>
    rw [hleft, List.nil_append] at hb
    rw [← hb, ← List.singleton_append,
      Text.trim_append_of_isBlank_left (List.forall_mem_singleton.2 (by decide)),
      Text.trim_cons_of_not_isBlank hc, startsWithOneSlash_cons_trimEnd,
      startsWithOneSlash_cons_trimEnd, hslash] at hone
    cases hone

end Repair

end SlimTemplate
