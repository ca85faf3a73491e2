import Mathlib.Order.Basic
import SlimTemplate.Proofs.Writer.Line

/-!
# Rendered lines read back

A line of a source has a trimmed content on one line, and its kind is that of its content. So
lines that are rendered are read back with their contents and kinds, and with levels that are
counted from the least of them.

## Main definitions

* `SlimLine.IsRead`: what holds for every line of a source.
* `SlimLine.baseLevel`: the level from which rendered lines are counted.

## Main statements

* `SlimLine.isRead_of_mem_ofSource`: the lines of a source are read.
* `SlimLine.ofSource_render`: rendered lines are read back.
-/

namespace SlimTemplate.SlimLine

variable {layout : Layout} {line : SlimLine} {lines : List SlimLine}

/-- A line as it can stand in a source. -/
structure IsRead (line : SlimLine) : Prop where
  trim_content : Text.trim line.content = line.content
  content_ne_nil : line.content ≠ []
  lineFeed_not_mem : '\n' ∉ line.content
  kind_eq : line.kind = LineKind.of line.content

theorem isRead_of_read? {number : Nat} {text : Text} (htext : '\n' ∉ text)
    (h : read? layout number text = some line) : line.IsRead := by
  rw [read?] at h
  split at h
  · cases h
  · next hne =>
    cases h
    refine ⟨Text.trim_trim text, by simpa using hne, ?_, rfl⟩
    exact fun hmem => htext (Text.mem_of_mem_trim hmem)

theorem exists_of_mem_readAll {number : Nat} {texts : List Text}
    (h : line ∈ readAll layout number texts) :
    ∃ text ∈ texts, ∃ n, read? layout n text = some line := by
  induction texts generalizing number with
  | nil => cases h
  | cons text texts ih =>
    have hrest : line ∈ readAll layout (number + 1) texts →
        ∃ t ∈ text :: texts, ∃ n, read? layout n t = some line := by
      intro hmem
      obtain ⟨t, ht, hread⟩ := ih hmem
      exact ⟨t, List.mem_cons_of_mem _ ht, hread⟩
    rw [readAll] at h
    split at h
    · next first hfirst =>
      rcases List.mem_cons.1 h with rfl | h
      · exact ⟨text, List.mem_cons_self, number, hfirst⟩
      · exact hrest h
    · exact hrest h

/-- The lines of a source are read. -/
theorem isRead_of_mem_ofSource {source : Text} (h : line ∈ ofSource layout source) :
    line.IsRead := by
  obtain ⟨text, htext, n, hread⟩ := exists_of_mem_readAll h
  exact isRead_of_read? (Text.lineFeed_not_mem_of_mem_lines htext) hread

theorem readAll_eq_nil_iff {number : Nat} {texts : List Text} :
    readAll layout number texts = [] ↔ ∀ text ∈ texts, Text.trim text = [] := by
  induction texts generalizing number with
  | nil => exact iff_of_true rfl fun _ htext => absurd htext List.not_mem_nil
  | cons first texts ih =>
    rw [readAll, read?, List.forall_mem_cons]
    by_cases hfirst : Text.trim first = []
    · simp [hfirst, ih]
    · simp [hfirst]

theorem ofSource_eq_nil_iff {source : Text} :
    ofSource layout source = [] ↔ ∀ text ∈ Text.lines source, Text.trim text = [] :=
  readAll_eq_nil_iff

theorem ofSource_ne_nil {source : Text} (h : ∃ text ∈ Text.lines source, Text.trim text ≠ []) :
    ofSource layout source ≠ [] := by
  obtain ⟨text, htext, hne⟩ := h
  exact fun hnil => hne (ofSource_eq_nil_iff.1 hnil text htext)

/-- The level from which rendered lines are counted, the least of them. -/
def baseLevel (lines : List SlimLine) : Nat :=
  (leastLevel? lines).getD 0

theorem baseLevel_le (h : line ∈ lines) : baseLevel lines ≤ line.level := by
  have hmem : line.level ∈ lines.map (·.level) := List.mem_map.2 ⟨line, h, rfl⟩
  rw [baseLevel, leastLevel?]
  cases hmin : (lines.map (·.level)).min? with
  | none =>
    rw [List.min?_eq_none_iff] at hmin
    rw [hmin] at hmem
    cases hmem
  | some least => exact (List.min?_eq_some_iff.1 hmin).2 _ hmem

theorem exists_level_eq_baseLevel (h : lines ≠ []) :
    ∃ line ∈ lines, line.level = baseLevel lines := by
  cases hmin : leastLevel? lines with
  | none =>
    rw [leastLevel?, List.min?_eq_none_iff, List.map_eq_nil_iff] at hmin
    exact absurd hmin h
  | some least =>
    obtain ⟨line, hline, hlevel⟩ := List.mem_map.1 (List.min?_mem hmin)
    exact ⟨line, hline, by rw [hlevel, baseLevel, hmin]; rfl⟩

/-- The kinds of lines are those of their contents. -/
theorem map_view_eq (h : ∀ line ∈ lines, line.IsRead) (level : SlimLine → Nat) :
    lines.map (fun line => (line.content, line.kind, level line)) =
      (lines.map fun line => (line.content, level line)).map
        fun (content, level) => (content, LineKind.of content, level) := by
  rw [List.map_map]
  apply List.map_congr_left
  intro line hline
  simp only [Function.comp_apply, (h line hline).kind_eq]

/-- A line as the writer of markup would write it. -/
def entry (base : Nat) (line : SlimLine) : Writer.Entry :=
  ⟨line.level - base, line.content⟩

theorem render_eq_unlines (layout : Layout) (lines : List SlimLine) :
    render layout lines =
      Text.unlines ((lines.map (entry (baseLevel lines))).map (Writer.Entry.line layout)) := by
  rw [List.map_map]
  rfl

theorem IsRead.isOneLine_entry (h : line.IsRead) (base : Nat) : (line.entry base).IsOneLine := by
  refine ⟨?_, h.lineFeed_not_mem⟩
  rw [entry, h.trim_content]
  exact h.content_ne_nil

theorem IsRead.level_entry (h : line.IsRead) (base : Nat) :
    (line.entry base).level layout = line.level - base := by
  apply Writer.Entry.level_of_head?_ne
  intro hspace
  rw [entry, ← h.trim_content] at hspace
  exact absurd (Text.head?_trim_not_isBlank hspace) (by decide)

/-- Rendered lines are read back, at levels counted from the least of them. -/
theorem ofSource_render (layout : Layout) (h : ∀ line ∈ lines, line.IsRead) :
    (ofSource layout (render layout lines ++ ['\n'])).map
        (fun line => (line.content, line.kind, line.level)) =
      lines.map fun line => (line.content, line.kind, line.level - baseLevel lines) := by
  have honeLine : ∀ e ∈ lines.map (entry (baseLevel lines)), e.IsOneLine := by
    intro e he
    obtain ⟨line, hline, rfl⟩ := List.mem_map.1 he
    exact (h line hline).isOneLine_entry _
  have hback := Writer.ofSource_unlines layout honeLine
  rw [← render_eq_unlines, List.map_map] at hback
  rw [map_view_eq fun _ => isRead_of_mem_ofSource, hback, map_view_eq h]
  congr 1
  apply List.map_congr_left
  intro line hline
  rw [Function.comp_apply, (h line hline).level_entry, entry, (h line hline).trim_content]

end SlimTemplate.SlimLine
