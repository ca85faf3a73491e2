import SlimTemplate.Line.Basic
import SlimTemplate.Proofs.Text.Lines
import SlimTemplate.Writer.Entry

/-!
# Written lines read back

A line that is not blank and holds no line feed is read back as one line. Its level is its depth,
and more if its text begins with spaces.

## Main definitions

* `Writer.Entry.IsOneLine`: a line that is not blank and has no line feed.
* `Writer.Entry.level`: the level at which a written line is read back.

## Main statements

* `Writer.ofSource_unlines`: written lines are read back one by one.
-/

namespace SlimTemplate

theorem spacesBefore_spaces_append (n : Nat) (text : Text) :
    spacesBefore (Text.spaces n ++ text) = n + spacesBefore text := by
  have hall : ∀ c ∈ Text.spaces n, decide (c = ' ') = true := by
    intro c hc
    simpa using List.eq_of_mem_replicate hc
  rw [spacesBefore, List.takeWhile_append_of_pos hall, List.length_append, spacesBefore]
  simp [Text.spaces]

/-- The carriage return of a line ending is no indentation. -/
theorem spacesBefore_dropFinalReturn (line : Text) :
    spacesBefore (Text.dropFinalReturn line) = spacesBefore line := by
  fun_induction Text.dropFinalReturn line with
  | case1 => rfl
  | case2 => rfl
  | case3 c line _ ih =>
    simp only [spacesBefore] at ih ⊢
    rw [List.takeWhile_cons, List.takeWhile_cons]
    by_cases hc : c = ' '
    · simp [hc, ih]
    · simp [hc]

theorem spacesBefore_of_head?_ne {text : Text} (h : text.head? ≠ some ' ') :
    spacesBefore text = 0 := by
  cases text with
  | nil => rfl
  | cons c text =>
    have hc : c ≠ ' ' := by simpa using h
    simp [spacesBefore, hc]

theorem spacesBefore_cons_of_not_isBlank {c : Char} (hc : Text.isBlank c = false) (text : Text) :
    spacesBefore (c :: text) = 0 := by
  refine spacesBefore_of_head?_ne ?_
  rintro hspace
  obtain rfl := Option.some.inj hspace
  exact absurd hc (by decide)

theorem Layout.lineFeed_not_mem_indent (layout : Layout) (depth : Nat) :
    '\n' ∉ layout.indent depth := by
  intro hmem
  exact absurd (List.eq_of_mem_replicate hmem) (by decide)

namespace Writer

/-- A line that is not blank and has no line feed. -/
def Entry.IsOneLine (entry : Entry) : Prop :=
  Text.trim entry.text ≠ [] ∧ '\n' ∉ entry.text

/-- The level at which a written line is read back. -/
def Entry.level (layout : Layout) (entry : Entry) : Nat :=
  entry.depth + spacesBefore entry.text / layout.width

theorem Entry.level_of_head?_ne {layout : Layout} {entry : Entry}
    (h : entry.text.head? ≠ some ' ') : entry.level layout = entry.depth := by
  rw [Entry.level, spacesBefore_of_head?_ne h, Nat.zero_div, Nat.add_zero]

theorem Entry.depth_le_level (layout : Layout) (entry : Entry) :
    entry.depth ≤ entry.level layout :=
  Nat.le_add_right _ _

theorem Entry.lineFeed_not_mem_line {layout : Layout} {entry : Entry} (h : entry.IsOneLine) :
    '\n' ∉ entry.line layout := by
  rw [Entry.line, List.mem_append, not_or]
  exact ⟨layout.lineFeed_not_mem_indent entry.depth, h.2⟩

/-- A line that is written is read back with its text and its level. -/
theorem Entry.read?_line (layout : Layout) {entry : Entry} (h : entry.IsOneLine) (number : Nat) :
    ∃ line, SlimLine.read? layout number (Text.dropFinalReturn (entry.line layout)) = some line ∧
      line.content = Text.trim entry.text ∧ line.level = entry.level layout := by
  have hcontent : Text.trim (Text.dropFinalReturn (entry.line layout)) = Text.trim entry.text := by
    rw [Text.trim_dropFinalReturn, Entry.line, Layout.indent, Text.trim_spaces_append]
  have hlevel : spacesBefore (Text.dropFinalReturn (entry.line layout)) / layout.width =
      entry.level layout := by
    rw [spacesBefore_dropFinalReturn, Entry.line, Layout.indent, spacesBefore_spaces_append,
      Nat.mul_add_div layout.width_pos, Entry.level]
  have hne : (Text.trim entry.text).isEmpty = false := by
    rw [List.isEmpty_eq_false_iff]
    exact h.1
  simp only [SlimLine.read?, hcontent, hne, hlevel]
  exact ⟨_, rfl, rfl, rfl⟩

theorem readAll_lines {layout : Layout} {entries : List Entry}
    (h : ∀ entry ∈ entries, entry.IsOneLine) (number : Nat) :
    (SlimLine.readAll layout number
        ((entries.map (Entry.line layout)).map Text.dropFinalReturn)).map
        (fun line => (line.content, line.level)) =
      entries.map fun entry => (Text.trim entry.text, entry.level layout) := by
  induction entries generalizing number with
  | nil => rfl
  | cons entry entries ih =>
    obtain ⟨line, hread, hcontent, hlevel⟩ :=
      Entry.read?_line layout (h entry List.mem_cons_self) number
    rw [List.map_cons, List.map_cons, SlimLine.readAll, hread]
    simp only [List.map_cons]
    rw [ih fun e he => h e (List.mem_cons_of_mem _ he), hcontent, hlevel]

/-- Written lines are read back one by one, each with its text and its level. -/
theorem ofSource_unlines (layout : Layout) {entries : List Entry}
    (h : ∀ entry ∈ entries, entry.IsOneLine) :
    (SlimLine.ofSource layout (Text.unlines (entries.map (Entry.line layout)) ++ ['\n'])).map
        (fun line => (line.content, line.level)) =
      entries.map fun entry => (Text.trim entry.text, entry.level layout) := by
  cases entries with
  | nil => rfl
  | cons entry entries =>
    have hlf : ∀ l ∈ (entry :: entries).map (Entry.line layout), '\n' ∉ l := by
      intro l hl
      obtain ⟨e, he, rfl⟩ := List.mem_map.1 hl
      exact Entry.lineFeed_not_mem_line (h e he)
    rw [SlimLine.ofSource, Text.lines_unlines (by simp) hlf, readAll_lines h]

end Writer

end SlimTemplate
