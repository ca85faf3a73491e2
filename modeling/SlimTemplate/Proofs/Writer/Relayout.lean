import SlimTemplate.Proofs.Line.Render
import SlimTemplate.Proofs.Writer.Flush
import SlimTemplate.Proofs.Writer.ReadBack

/-!
# The layout of a written document

The lines of a document without blocks of code stand at exactly their depths. So the levels that
are read back say all that the indentation says, and lines that are read in one layout can be
written in another as the document would be.

## Main statements

* `Writer.nodeEntries_isFlush`: the lines of nodes without blocks of code are flush.
* `Markup.Document.render_ofSource_toSlim`: a document read back and written in another layout.
-/

namespace SlimTemplate

namespace Writer

open Markup

mutual

/-- The lines of a node without blocks of code are flush. -/
theorem nodeEntries_isFlush (depth : Nat) : (node : Node) → node.FitsLines →
    (∀ content ∈ node.comments, (Directive.decode content).kind ≠ some .codeLines) →
      ∀ entry ∈ nodeEntries depth node, entry.IsFlush
  | .text content, _, _ => by
    rw [nodeEntries]
    exact fun entry hentry => (textEntries_isFlushAt depth content entry hentry).1
  | .comment content, hfits, hkinds => by
    rw [nodeEntries]
    exact (commentEntries_isFlushHeaded depth hfits.1
      (hkinds content (by simp [Node.comments]))).isFlush
  | .block isOutput code children, hfits, hkinds => by
    rw [nodeEntries]
    split
    · exact nodesEntries_isFlush depth children hfits.2 hkinds
    · exact List.forall_mem_cons.2 ⟨(blockLine_isFlushAt depth isOutput code).1,
        nodesEntries_isFlush (depth + 1) children hfits.2 hkinds⟩
  | .element name attributes children, hfits, hkinds => by
    have hbare := (bare_isFlushAt depth hfits.1.1).1
    rw [nodeEntries]
    split
    · exact List.forall_mem_singleton.2 hbare
    · split
      · exact (inlineEntries_isFlushHeaded depth hfits.1.1 _).isFlush
      · exact List.forall_mem_cons.2
          ⟨hbare, nodesEntries_isFlush (depth + 1) children hfits.2 hkinds⟩

/-- The lines of nodes side by side without blocks of code are flush. -/
theorem nodesEntries_isFlush (depth : Nat) : (nodes : List Node) → nodesFitLines nodes →
    (∀ content ∈ nodesComments nodes, (Directive.decode content).kind ≠ some .codeLines) →
      ∀ entry ∈ nodesEntries depth nodes, entry.IsFlush
  | [], _, _ => by simp [nodesEntries]
  | node :: nodes, hfits, hkinds => by
    rw [nodesComments, List.forall_mem_append] at hkinds
    rw [nodesEntries, List.forall_mem_append]
    exact ⟨nodeEntries_isFlush depth node hfits.1 hkinds.1,
      nodesEntries_isFlush depth nodes hfits.2 hkinds.2⟩

end

end Writer

namespace Markup.Document

open Writer SlimLine

variable {document : Document}

/-- Without blocks of code all lines of a document are flush. -/
theorem entries_isFlush (hfits : document.FitsLines)
    (hkinds : ∀ content ∈ document.comments, (Directive.decode content).kind ≠ some .codeLines) :
    ∀ entry ∈ document.entries, entry.IsFlush := by
  rw [entries, List.forall_mem_append]
  refine ⟨?_, nodesEntries_isFlush 0 document.nodes hfits hkinds⟩
  cases document.doctype with
  | none => simp
  | some doctype =>
    refine List.forall_mem_singleton.2 ?_
    cases doctype <;> exact (isFlushAt_cons 0 (by decide) _).1

/-- The lines of a document that are read back have the texts and the depths of the entries. -/
theorem lines_ofSource_toSlim_of_isFlush (layout : Layout) (hfits : document.FitsLines)
    (hflush : ∀ entry ∈ document.entries, entry.IsFlush) :
    (LineTree.ofSource layout (document.toSlim layout)).lines.map
        (fun line => (line.content, line.level)) =
      document.entries.map fun entry => (Text.trim entry.text, entry.depth) := by
  rw [lines_ofSource_toSlim layout hfits, ← document.owned_entries, List.map_map]
  refine List.map_congr_left fun x hx => ?_
  have hentry : x.2 ∈ document.entries := document.owned_entries ▸ List.mem_map_of_mem hx
  rw [Function.comp_apply, (hflush x.2 hentry).level_eq]

/-- Lines are counted from the margin, where the first one stands. -/
theorem baseLevel_ofSource_toSlim (layout : Layout) (hfits : document.FitsLines)
    (hflush : ∀ entry ∈ document.entries, entry.IsFlush) :
    baseLevel (LineTree.ofSource layout (document.toSlim layout)).lines = 0 := by
  have hread := lines_ofSource_toSlim_of_isFlush layout hfits hflush
  cases hentries : document.entries with
  | nil =>
    rw [hentries, List.map_nil, List.map_eq_nil_iff] at hread
    rw [hread]
    rfl
  | cons first rest =>
    have hfirst := ((entries_isLaidOut hfits).first first (by rw [hentries]; rfl)).2.1
    rw [hentries] at hread
    obtain ⟨line, lines, hlines, hline, -⟩ := List.map_eq_cons_iff.1 hread
    have hlevel : line.level = 0 := (congrArg Prod.snd hline).trans hfirst
    rw [hlines]
    exact Nat.le_zero.1 (hlevel ▸ baseLevel_le List.mem_cons_self)

/-- Cut at its line feeds, a document without blocks of code gives one part for each entry. -/
theorem splitOn_toSlim (layout : Layout) (hfits : document.FitsLines)
    (hflush : ∀ entry ∈ document.entries, entry.IsFlush) :
    (Text.splitOn '\n' (document.toSlim layout)).map Text.trimEnd =
      Text.splitOn '\n' (Text.unlines (document.entries.map fun entry =>
        layout.indent entry.depth ++ Text.trim entry.text) ++ ['\n']) := by
  have hone := (entries_isLaidOut hfits).oneLine
  rw [toSlim]
  by_cases hnil : document.entries = []
  · rw [hnil]
    rfl
  · rw [Text.splitOn_unlines (by simpa using hnil) (List.forall_mem_map.2 fun entry hentry =>
        Entry.lineFeed_not_mem_line (hone entry hentry)),
      Text.splitOn_unlines (by simpa using hnil) (List.forall_mem_map.2 fun entry hentry => ?_),
      List.map_append, List.map_map]
    · congr 1
      exact List.map_congr_left fun entry hentry => (hflush entry hentry).trimEnd_line layout
    · rw [List.mem_append, not_or]
      exact ⟨layout.lineFeed_not_mem_indent _,
        fun hmem => (hone entry hentry).2 (Text.mem_of_mem_trim hmem)⟩

/-- A document without blocks of code that is written in one layout, read back and written in
another is, up to blanks at the ends of lines, the document written in that other layout. -/
theorem render_ofSource_toSlim (reading writing : Layout) (document : Document)
    (hfits : document.FitsLines)
    (hkinds : ∀ content ∈ document.comments, (Directive.decode content).kind ≠ some .codeLines) :
    (Text.splitOn '\n' (render writing
        (LineTree.ofSource reading (document.toSlim reading)).lines ++ ['\n'])).map Text.trimEnd =
      (Text.splitOn '\n' (document.toSlim writing)).map Text.trimEnd := by
  have hflush := entries_isFlush hfits hkinds
  have hread := lines_ofSource_toSlim_of_isFlush reading hfits hflush
  have hwritten : (LineTree.ofSource reading (document.toSlim reading)).lines.map
        (write writing 0) =
      document.entries.map fun entry => writing.indent entry.depth ++ Text.trim entry.text := by
    have hview := congrArg (List.map fun view : Text × Nat => writing.indent view.2 ++ view.1) hread
    rwa [List.map_map, List.map_map] at hview
  have hbase := baseLevel_ofSource_toSlim reading hfits hflush
  rw [baseLevel] at hbase
  rw [render, hbase, hwritten, ← splitOn_toSlim writing hfits hflush, List.map_map]
  exact List.map_congr_left fun line _ => Text.trimEnd_trimEnd line

theorem nested_noCodeLines :
    ∀ content ∈ nested.comments, (Directive.decode content).kind ≠ some .codeLines := by
  decide

/-- A condition in an element, written with one space for each level and then with three. -/
theorem render_ofSource_toSlim_nested :
    nested.FitsLines ∧
      (∀ content ∈ nested.comments, (Directive.decode content).kind ≠ some .codeLines) ∧
      (Text.splitOn '\n' (render ⟨3⟩
          (LineTree.ofSource ⟨0⟩ (nested.toSlim ⟨0⟩)).lines ++ ['\n'])).map Text.trimEnd =
        (Text.splitOn '\n' (nested.toSlim ⟨3⟩)).map Text.trimEnd :=
  ⟨nested_fitsLines, nested_noCodeLines,
    render_ofSource_toSlim ⟨0⟩ ⟨3⟩ nested nested_fitsLines nested_noCodeLines⟩

end Markup.Document

end SlimTemplate
