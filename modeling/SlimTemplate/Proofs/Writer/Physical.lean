import SlimTemplate.Conversion
import SlimTemplate.Proofs.Html.Names
import SlimTemplate.Proofs.Writer.Row

/-!
# Physical lines of a converted text

A converted text is a single line feed or ends in exactly one. It has one physical line for each
entry, none of them blank, exactly if no node breaks: no identifier, no code of a block and no
comment that is written on one line has a line feed.

## Main definitions

* `Writer.IsWhole`: a text that is made of one physical line for each entry.

## Main statements

* `htmlToSlim_isWhole_iff`: the converted texts that are made of whole lines.
-/

namespace SlimTemplate

namespace Writer

/-- A text that is cut at its line feeds into the lines of some entries, none of them blank. -/
structure IsWhole (layout : Layout) (entries : List Entry) (written : Text) : Prop where
  splitOn_eq : Text.splitOn '\n' written = entries.map (Entry.line layout) ++ [[]]
  visible : ∀ entry ∈ entries, Text.trim (entry.line layout) ≠ []

theorem length_splitOn_eq_one_iff {text : Text} :
    (Text.splitOn '\n' text).length = 1 ↔ '\n' ∉ text := by
  constructor
  · intro hlength hmem
    obtain ⟨part, hpart⟩ := List.length_eq_one_iff.1 hlength
    have htext := Text.unlines_splitOn text
    rw [hpart] at htext
    have hlf : '\n' ∉ part := Text.not_mem_of_mem_splitOn (by rw [hpart]; exact List.mem_cons_self)
    have hpart : Text.unlines [part] = part := rfl
    exact hlf (hpart.symm.trans htext ▸ hmem)
  · intro h
    rw [Text.splitOn_of_not_mem h]
    rfl

theorem length_physicalLines_le (layout : Layout) (entries : List Entry) :
    entries.length ≤ (physicalLines layout entries).length := by
  induction entries with
  | nil => exact Nat.le_refl 0
  | cons entry entries ih =>
    have hpos := List.length_pos_of_ne_nil (Text.splitOn_ne_nil '\n' (entry.line layout))
    rw [physicalLines, List.flatMap_cons, List.length_append, List.length_cons]
    rw [physicalLines] at ih
    omega

theorem lineFeed_mem_line_iff (layout : Layout) (entry : Entry) :
    '\n' ∈ entry.line layout ↔ '\n' ∈ entry.text := by
  rw [Entry.line, List.mem_append, or_iff_right (layout.lineFeed_not_mem_indent entry.depth)]

/-- Each entry is one physical line exactly if no entry breaks. -/
theorem length_physicalLines_eq_iff (layout : Layout) (entries : List Entry) :
    (physicalLines layout entries).length = entries.length ↔
      entries.any Entry.breaks = false := by
  induction entries with
  | nil => exact iff_of_true rfl rfl
  | cons entry entries ih =>
    have hpos := List.length_pos_of_ne_nil (Text.splitOn_ne_nil '\n' (entry.line layout))
    have hle := length_physicalLines_le layout entries
    have hone : (Text.splitOn '\n' (entry.line layout)).length = 1 ↔ entry.breaks = false := by
      rw [length_splitOn_eq_one_iff, lineFeed_mem_line_iff, Entry.breaks, List.contains_eq_mem,
        decide_eq_false_iff_not]
    have hcons : physicalLines layout (entry :: entries) =
        Text.splitOn '\n' (entry.line layout) ++ physicalLines layout entries :=
      List.flatMap_cons
    rw [hcons, List.length_append, List.length_cons, List.any_cons, Bool.or_eq_false_iff, ← ih,
      ← hone]
    omega

theorem lines_unlines_entries (layout : Layout) {entries : List Entry} (hne : entries ≠ []) :
    Text.lines (Text.unlines (entries.map (Entry.line layout)) ++ ['\n']) =
      (physicalLines layout entries).map Text.dropFinalReturn := by
  rw [← unlines_physicalLines]
  refine Text.lines_unlines ?_ fun line hline => ?_
  · obtain ⟨entry, more, rfl⟩ := List.exists_cons_of_ne_nil hne
    exact physicalLines_ne_nil layout entry more
  · obtain ⟨entry, -, hpart⟩ := List.mem_flatMap.1 hline
    exact Text.not_mem_of_mem_splitOn hpart

theorem isWhole_unlines (layout : Layout) {entries : List Entry} (hne : entries ≠ [])
    (hclosed : ∀ entry ∈ entries, entry.IsClosed) (h : entries.any Entry.breaks = false) :
    IsWhole layout entries (Text.unlines (entries.map (Entry.line layout)) ++ ['\n']) := by
  refine ⟨Text.splitOn_unlines (by simpa using hne) fun line hline => ?_, fun entry hentry => ?_⟩
  · obtain ⟨entry, hentry, rfl⟩ := List.mem_map.1 hline
    have hbreaks := List.any_eq_false.1 h entry hentry
    rw [lineFeed_mem_line_iff]
    intro hmem
    exact hbreaks (by rw [Entry.breaks, List.contains_eq_mem]; exact decide_eq_true hmem)
  · rw [Entry.line, Layout.indent, Text.trim_spaces_append]
    exact (hclosed entry hentry).1

/-- Closed entries end in exactly one line feed. -/
theorem unlines_ends (layout : Layout) {entries : List Entry} (hne : entries ≠ [])
    (hclosed : ∀ entry ∈ entries, entry.IsClosed) :
    ∃ body c, Text.unlines (entries.map (Entry.line layout)) ++ ['\n'] = body ++ [c, '\n'] ∧
      c ≠ '\n' := by
  obtain ⟨before, last, rfl⟩ : ∃ before last, entries = before ++ [last] :=
    ⟨entries.dropLast, entries.getLast hne, (List.dropLast_append_getLast hne).symm⟩
  obtain ⟨hvisible, hend⟩ := hclosed last (by simp)
  have htext : last.text ≠ [] := fun hnil => hvisible (by rw [hnil]; rfl)
  obtain ⟨body, c, hbody⟩ : ∃ body c, last.text = body ++ [c] :=
    ⟨last.text.dropLast, last.text.getLast htext, (List.dropLast_append_getLast htext).symm⟩
  have hc : c ≠ '\n' := by
    rintro rfl
    exact hend (by rw [hbody, List.getLast?_concat])
  have hline : last.line layout = layout.indent last.depth ++ body ++ [c] := by
    rw [Entry.line, hbody, List.append_assoc]
  rw [List.map_append, List.map_singleton]
  by_cases hbefore : before = []
  · rw [hbefore, List.map_nil, List.nil_append]
    refine ⟨layout.indent last.depth ++ body, c, ?_, hc⟩
    show last.line layout ++ ['\n'] = _
    rw [hline, List.append_assoc]
    rfl
  · rw [Text.unlines_append (by simpa using hbefore) (List.cons_ne_nil _ _)]
    refine ⟨Text.unlines (before.map (Entry.line layout)) ++
      '\n' :: (layout.indent last.depth ++ body), c, ?_, hc⟩
    show _ ++ '\n' :: last.line layout ++ ['\n'] = _
    rw [hline]
    simp only [List.append_assoc, List.cons_append, List.nil_append]

end Writer

namespace Markup.Document

open Writer

/-- A document breaks where one of its nodes does. -/
theorem entries_break {document : Document} (h : nodesProper document.nodes) :
    Break document.entries (nodesBreak document.nodes) := by
  have hnodes := nodesEntries_break 0 document.nodes h
  have hdoctype : ∀ doctype : Doctype, Break [⟨0, doctype.line⟩] false := by
    intro doctype
    refine .of_isOneLine (List.forall_mem_singleton.2 ?_)
    cases doctype <;> exact ⟨by decide, by decide⟩
  rw [entries]
  cases document.doctype with
  | none => exact hnodes
  | some doctype => exact (hdoctype doctype).append hnodes

end Markup.Document

/-- A converted text is a single line feed, or ends in exactly one. It has as many physical lines
as there are entries exactly if no node breaks, and is then made of one line for each entry. -/
theorem htmlToSlim_isWhole_iff (layout : Layout) (source : Text) :
    let document := Markup.Document.ofHtml source
    let written := htmlToSlim layout source
    (document.entries = [] → written = ['\n']) ∧
      (document.entries ≠ [] →
        (∃ body c, written = body ++ [c, '\n'] ∧ c ≠ '\n') ∧
          ((Text.lines written).length = document.entries.length ↔
            Markup.nodesBreak document.nodes = false) ∧
          (Markup.nodesBreak document.nodes = false →
            Writer.IsWhole layout document.entries written)) := by
  intro document written
  have hbreak := document.entries_break (Markup.Document.ofHtml_isProper source)
  have hwritten : written =
      Text.unlines (document.entries.map (Writer.Entry.line layout)) ++ ['\n'] := rfl
  refine ⟨fun hnil => by rw [hwritten, hnil]; rfl, fun hne => ⟨?_, ?_, fun hflat => ?_⟩⟩
  · rw [hwritten]
    exact Writer.unlines_ends layout hne hbreak.isClosed
  · rw [hwritten, Writer.lines_unlines_entries layout hne, List.length_map,
      Writer.length_physicalLines_eq_iff, hbreak.any_eq]
  · rw [hwritten]
    exact Writer.isWhole_unlines layout hne hbreak.isClosed (hbreak.any_eq.trans hflat)

/-- Code over several lines that is written on one line leaves a blank line in the text. -/
theorem htmlToSlim_codeWithGap :
    let source := "<% a\n\n b %>".toList
    (Markup.Document.ofHtml source).entries.length = 1 ∧
      Text.lines (htmlToSlim .standard source) = ["- a", "", " b"].map String.toList := by
  decide +kernel

end SlimTemplate
