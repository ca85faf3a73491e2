import SlimTemplate.Proofs.Line.Render
import SlimTemplate.Proofs.Line.Tree

/-!
# The normal form of lines

Lines that are written and read again come back in a normal form: nothing but their contents, and
levels that count from the least of them. Since all levels are lower by the same number, each line
keeps its parent, and what is in normal form is written as the same text again.

## Main statements

* `SlimLine.ofSource_append_lineFeed`: written lines need no line feed at their end.
* `LineTree.ofSource_render_normal`: lines of a source, written and read again.
-/

namespace SlimTemplate

namespace SlimLine

variable {layout : Layout} {line : SlimLine} {lines : List SlimLine}

/-- A line as written ends in what its content ends in. -/
theorem IsRead.dropFinalReturn_write (h : line.IsRead) (base : Nat) :
    write layout base line ≠ [] ∧
      Text.dropFinalReturn (write layout base line) = write layout base line := by
  refine ⟨fun hnil => h.content_ne_nil (List.append_eq_nil_iff.1 hnil).2, ?_⟩
  rcases Text.dropFinalReturn_cases (write layout base line) with hsame | hreturn
  · exact hsame
  · have hlast : line.content.getLast? = some '\r' := by
      have hwrite : (write layout base line).getLast? = some '\r' := by
        rw [hreturn, List.getLast?_concat]
      rwa [write, List.getLast?_append_of_ne_nil _ h.content_ne_nil] at hwrite
    rw [← h.trim_content] at hlast
    exact absurd (Text.getLast?_trim_not_isBlank hlast) (by decide)

theorem IsRead.lineFeed_not_mem_write (h : line.IsRead) (base : Nat) :
    '\n' ∉ write layout base line := by
  rw [write, List.mem_append, not_or]
  exact ⟨layout.lineFeed_not_mem_indent _, h.lineFeed_not_mem⟩

/-- Written lines are read back with and without a line feed at their end. -/
theorem ofSource_append_lineFeed (layout : Layout) (h : ∀ line ∈ lines, line.IsRead) :
    ofSource layout (render layout lines ++ ['\n']) = ofSource layout (render layout lines) := by
  cases lines with
  | nil => rfl
  | cons first rest =>
    have hfeed : ∀ text ∈ (first :: rest).map (write layout (baseLevel (first :: rest))),
        '\n' ∉ text :=
      List.forall_mem_map.2 fun line hline => (h line hline).lineFeed_not_mem_write _
    have hlast : ∀ last, ((first :: rest).map (write layout (baseLevel (first :: rest)))).getLast? =
        some last → last ≠ [] ∧ Text.dropFinalReturn last = last := by
      intro last hlast
      obtain ⟨line, hline, rfl⟩ := List.mem_map.1 (List.mem_of_getLast? hlast)
      exact (h line hline).dropFinalReturn_write _
    have hne : (first :: rest).map (write layout (baseLevel (first :: rest))) ≠ [] := by simp
    exact congrArg (readAll layout 1)
      ((Text.lines_unlines hne hfeed).trans (Text.lines_unlines_unended hne hfeed hlast).symm)

/-- The least of levels that are all raised by the same number is raised by it. -/
theorem baseLevel_of_raise {raised : List SlimLine} {base : Nat} (hne : lines ≠ [])
    (h : raised.map (·.level) = lines.map fun line => line.level + base) :
    baseLevel raised = baseLevel lines + base := by
  have hraised : raised ≠ [] := by
    rintro rfl
    exact hne (List.map_eq_nil_iff.1 h.symm)
  apply Nat.le_antisymm
  · obtain ⟨line, hline, hlevel⟩ := exists_level_eq_baseLevel hne
    have hmem : line.level + base ∈ raised.map (·.level) := h ▸ List.mem_map.2 ⟨line, hline, rfl⟩
    obtain ⟨high, hhigh, heq⟩ := List.mem_map.1 hmem
    rw [← hlevel, ← heq]
    exact baseLevel_le hhigh
  · obtain ⟨high, hhigh, hlevel⟩ := exists_level_eq_baseLevel hraised
    have hmem : high.level ∈ lines.map fun line => line.level + base :=
      h ▸ List.mem_map.2 ⟨high, hhigh, rfl⟩
    obtain ⟨line, hline, heq⟩ := List.mem_map.1 hmem
    rw [← hlevel, ← heq]
    exact Nat.add_le_add_right (baseLevel_le hline) base

/-- Lines with the same contents and with levels that differ by one number everywhere are written
alike. -/
theorem render_of_raise {raised : List SlimLine} (base : Nat)
    (h : raised.map (fun line => (line.content, line.level)) =
      lines.map fun line => (line.content, line.level + base)) :
    render layout raised = render layout lines := by
  have hlevel : raised.map (·.level) = lines.map fun line => line.level + base := by
    have := congrArg (List.map Prod.snd) h
    rwa [List.map_map, List.map_map] at this
  by_cases hne : lines = []
  · rw [hne] at h ⊢
    rw [List.map_eq_nil_iff.1 h]
  · have hbase := baseLevel_of_raise hne hlevel
    have hwrite : raised.map (write layout (baseLevel raised)) =
        lines.map (write layout (baseLevel lines)) := by
      have hview := congrArg (List.map fun view : Text × Nat =>
        layout.indent (view.2 - baseLevel raised) ++ view.1) h
      rw [List.map_map, List.map_map] at hview
      refine hview.trans (List.map_congr_left fun line _ => ?_)
      rw [Function.comp_apply, write, hbase, Nat.add_sub_add_right]
    exact congrArg Text.unlines hwrite

end SlimLine

namespace LineTree

open SlimLine

/-- Lines of a source that are written in any layout and read again have their contents, their kinds
and their parents, and all levels are lower by the least of them. Written once more they are the
same text. -/
theorem ofSource_render_normal (reading writing : Layout) (source : Text) :
    let tree := LineTree.ofSource reading source
    let written := render writing tree.lines
    let again := LineTree.ofSource writing written
    tree.lines.map (fun line => (line.content, line.kind, line.level)) =
        again.lines.map
          (fun line => (line.content, line.kind, line.level + (leastLevel? tree.lines).getD 0)) ∧
      (∀ i, again.parent? i = tree.parent? i) ∧ render writing again.lines = written := by
  intro tree written again
  have hread : ∀ line ∈ tree.lines, line.IsRead := fun line hline => isRead_of_mem_ofSource hline
  have hagain := ofSource_render writing hread
  rw [ofSource_append_lineFeed writing hread] at hagain
  have hraise : tree.lines.map (fun line => (line.content, line.kind, line.level)) =
      again.lines.map
        (fun line => (line.content, line.kind, line.level + baseLevel tree.lines)) := by
    have hview := congrArg (List.map fun view : Text × LineKind × Nat =>
      (view.1, view.2.1, view.2.2 + baseLevel tree.lines)) hagain
    rw [List.map_map, List.map_map] at hview
    refine Eq.trans (List.map_congr_left fun line hline => ?_) hview.symm
    rw [Function.comp_apply, Nat.sub_add_cancel (baseLevel_le hline)]
  refine ⟨hraise, fun i => (parent?_of_raise (baseLevel tree.lines) ?_ i).symm, ?_⟩
  · have hlevel := congrArg (List.map fun view : Text × LineKind × Nat => view.2.2) hraise
    rwa [List.map_map, List.map_map] at hlevel
  · refine (render_of_raise (baseLevel tree.lines) ?_).symm
    have hcontent := congrArg (List.map fun view : Text × LineKind × Nat => (view.1, view.2.2)) hraise
    rwa [List.map_map, List.map_map] at hcontent

/-- Blanks around a line, a tab among them, and a carriage return within it: only the spaces before
it count. -/
example :
    render ⟨4⟩ (LineTree.ofSource ⟨2⟩ "    ul \t\r\n  \t li a\rb\n      li".toList).lines =
      "    ul\nli a\rb\n        li".toList := by
  decide +kernel

end LineTree

end SlimTemplate
