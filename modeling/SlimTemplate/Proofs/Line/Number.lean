import SlimTemplate.Line.Basic

/-!
# Lines by their numbers

The number of a line is its place among the physical lines of its source, blank ones counted. So
no two lines have the same number, and a line is found by the physical line at its place.

## Main statements

* `SlimLine.mem_ofSource_iff`: the lines of a source by their numbers.
* `SlimLine.eq_of_number_eq`: no two of them have the same number.
-/

namespace SlimTemplate.SlimLine

variable {layout : Layout} {line : SlimLine} {number : Nat} {text : Text}

theorem number_of_read? (h : read? layout number text = some line) : line.number = number := by
  rw [read?] at h
  split at h
  · cases h
  · cases h
    rfl

theorem content_of_read? (h : read? layout number text = some line) :
    line.content = Text.trim text := by
  rw [read?] at h
  split at h
  · cases h
  · cases h
    rfl

/-- A line stands at the place that its number says. -/
theorem mem_readAll_iff {texts : List Text} : line ∈ readAll layout number texts ↔
    ∃ i text, texts[i]? = some text ∧ read? layout (number + i) text = some line := by
  induction texts generalizing number with
  | nil => simp [readAll]
  | cons first texts ih =>
    have hrest : line ∈ readAll layout (number + 1) texts ↔ ∃ i text,
        (first :: texts)[i + 1]? = some text ∧
          read? layout (number + (i + 1)) text = some line := by
      simp only [ih, List.getElem?_cons_succ, Nat.add_assoc, Nat.add_comm 1]
    have hplaces : (∃ i text, (first :: texts)[i]? = some text ∧
          read? layout (number + i) text = some line) ↔
        read? layout number first = some line ∨ line ∈ readAll layout (number + 1) texts := by
      rw [hrest]
      constructor
      · rintro ⟨i, text, htext, hread⟩
        cases i with
        | zero =>
          cases htext
          exact Or.inl hread
        | succ i => exact Or.inr ⟨i, text, htext, hread⟩
      · rintro (hread | ⟨i, text, htext, hread⟩)
        · exact ⟨0, first, rfl, hread⟩
        · exact ⟨i + 1, text, htext, hread⟩
    rw [hplaces, readAll]
    cases read? layout number first with
    | none => simp
    | some other => rw [List.mem_cons, Option.some.injEq, eq_comm]

/-- A line of a source is the line of its number. -/
theorem mem_ofSource_iff {source : Text} : line ∈ ofSource layout source ↔
    ∃ i text, (Text.lines source)[i]? = some text ∧ read? layout (1 + i) text = some line :=
  mem_readAll_iff

/-- No two lines of a source have the same number. -/
theorem eq_of_number_eq {source : Text} {other : SlimLine} (h : line ∈ ofSource layout source)
    (hother : other ∈ ofSource layout source) (hnumber : other.number = line.number) :
    other = line := by
  obtain ⟨i, text, htext, hread⟩ := mem_ofSource_iff.1 h
  obtain ⟨j, second, hsecond, hreadOther⟩ := mem_ofSource_iff.1 hother
  rw [number_of_read? hread, number_of_read? hreadOther] at hnumber
  obtain rfl : j = i := by omega
  obtain rfl := Option.some.inj (htext.symm.trans hsecond)
  exact Option.some.inj (hreadOther.symm.trans hread)

end SlimTemplate.SlimLine
