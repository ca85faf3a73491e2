import Mathlib.Data.List.Chain
import SlimTemplate.Proofs.Writer.Flush
import SlimTemplate.Proofs.Writer.Physical

/-!
# How far the rows of a document go down

A node writes its first row at its depth, and what it encloses one level deeper. So no row of the
writer's own stands more than one level deeper than the row before it. Only a row that carries on,
or one behind it, can: its spaces are those of the code or the text that it comes from.

## Main definitions

* `Writer.Row.Steps`: a row and the next one, where the next goes down at most one level unless one
  of them carries on.
* `Writer.IsStepped`: rows at a depth or deeper that go down in steps.

## Main statements

* `Writer.nodeRows_isStepped`: the rows of a node are stepped.
* `Markup.Document.map_level_ofSource_toSlim`: the rows are what is read back.
-/

namespace SlimTemplate

/-- The levels of the lines that are read from texts. -/
theorem SlimLine.map_level_readAll (layout : Layout) (number : Nat) (texts : List Text) :
    (readAll layout number texts).map (·.level) =
      (texts.filter fun text => !(Text.trim text).isEmpty).map
        fun text => spacesBefore text / layout.width := by
  induction texts generalizing number with
  | nil => rfl
  | cons text texts ih =>
    rw [readAll, read?, List.filter_cons]
    cases (Text.trim text).isEmpty with
    | true => exact ih (number + 1)
    | false => exact congrArg (_ :: ·) (ih (number + 1))

namespace Writer

open Markup

/-- The level at which a row is read back. -/
def Row.level (layout : Layout) (row : Row) : Nat :=
  spacesBefore row.text / layout.width

/-- Whether a row is read back at all. -/
def Row.isVisible (row : Row) : Bool :=
  !(Text.trim row.text).isEmpty

/-- The rows that are read back. -/
def visibleRows (rows : List Row) : List Row :=
  rows.filter Row.isVisible

/-- A row of the writer's own at a depth. -/
structure Row.IsOwnAt (layout : Layout) (depth : Nat) (row : Row) : Prop where
  isVisible : row.isVisible = true
  level_eq : row.level layout = depth
  kind_ne : row.kind ≠ .carriedOn

/-- Where neither of two rows carries on, the second is at most one level deeper. -/
def Row.Steps (layout : Layout) (row next : Row) : Prop :=
  row.kind ≠ .carriedOn → next.kind ≠ .carriedOn → next.level layout ≤ row.level layout + 1

/-- Rows of which the first stands at a depth, none of the writer's own less deep, and of which
each goes down from the one before it by at most one level. -/
structure IsStepped (layout : Layout) (depth : Nat) (rows : List Row) : Prop where
  head : ∀ row ∈ rows.head?, row.IsOwnAt layout depth
  deep : ∀ row ∈ rows, row.kind ≠ .carriedOn → depth ≤ row.level layout
  chain : (visibleRows rows).IsChain (Row.Steps layout)

variable {layout : Layout} {depth : Nat} {row : Row} {rows more rest : List Row}

theorem visibleRows_append (a b : List Row) :
    visibleRows (a ++ b) = visibleRows a ++ visibleRows b :=
  List.filter_append a b

theorem isStepped_nil (layout : Layout) (depth : Nat) : IsStepped layout depth [] :=
  ⟨by simp, by simp, .nil⟩

/-- The first row of stepped rows is the first that is read back. -/
theorem IsStepped.head_visibleRows (h : IsStepped layout depth rows) :
    ∀ row ∈ (visibleRows rows).head?, row.IsOwnAt layout depth := by
  cases rows with
  | nil => simp [visibleRows]
  | cons first rows =>
    have hfirst := h.head first rfl
    rw [visibleRows, List.filter_cons_of_pos hfirst.isVisible]
    exact fun row hrow => Option.some.inj hrow ▸ hfirst

theorem IsStepped.append {a b : List Row} (ha : IsStepped layout depth a)
    (hb : IsStepped layout depth b) : IsStepped layout depth (a ++ b) := by
  refine ⟨?_, List.forall_mem_append.2 ⟨ha.deep, hb.deep⟩, ?_⟩
  · rw [List.head?_append]
    intro row hrow
    rcases Option.or_eq_some_iff.1 hrow with hrow | ⟨-, hrow⟩
    · exact ha.head row hrow
    · exact hb.head row hrow
  · rw [visibleRows_append]
    refine ha.chain.append hb.chain ?_
    intro last hlast first hfirst hkind _
    rw [(hb.head_visibleRows first hfirst).level_eq]
    have hmem := (List.mem_filter.1 (List.mem_of_getLast? hlast)).1
    exact Nat.le_succ_of_le (ha.deep last hmem hkind)

/-- Rows that all carry on behind a first one are a chain. -/
theorem isChain_carriedOn (h : ∀ row ∈ more, row.kind = .carriedOn) :
    (row :: more).IsChain (Row.Steps layout) := by
  induction more generalizing row with
  | nil => exact .singleton _
  | cons next more ih =>
    obtain ⟨hnext, hmore⟩ := List.forall_mem_cons.1 h
    exact .cons_cons (fun _ hkind => absurd hnext hkind) (ih hmore)

/-- A row at a depth, what carries it on, and stepped rows one level deeper. -/
theorem isStepped_headed (hrow : row.IsOwnAt layout depth)
    (hmore : ∀ row ∈ more, row.kind = .carriedOn) (hrest : IsStepped layout (depth + 1) rest) :
    IsStepped layout depth (row :: more ++ rest) := by
  have hdeep : ∀ r ∈ row :: more, r.kind ≠ .carriedOn → r = row := by
    intro r hr hkind
    exact (List.mem_cons.1 hr).elim id fun hr => absurd (hmore r hr) hkind
  refine ⟨fun r hr => Option.some.inj hr ▸ hrow, List.forall_mem_append.2 ⟨?_, ?_⟩, ?_⟩
  · intro r hr hkind
    rw [hdeep r hr hkind, hrow.level_eq]
  · intro r hr hkind
    exact Nat.le_of_succ_le (hrest.deep r hr hkind)
  · rw [visibleRows_append]
    refine List.IsChain.append ?_ hrest.chain ?_
    · rw [visibleRows, List.filter_cons_of_pos hrow.isVisible]
      exact isChain_carriedOn fun r hr => hmore r (List.mem_filter.1 hr).1
    · intro last hlast first hfirst hkind _
      have hmem := (List.mem_filter.1 (List.mem_of_getLast? hlast)).1
      rw [(hrest.head_visibleRows first hfirst).level_eq, hdeep last hmem hkind, hrow.level_eq]

/-! ## Rows of lines -/

variable {kind : RowKind} {entry : Entry}

/-- An indented row that begins with a character that is not blank. -/
theorem isOwnAt_cons (layout : Layout) (depth : Nat) {c : Char} (hc : Text.isBlank c = false)
    (rest : Text) (hkind : kind ≠ .carriedOn) :
    (Row.mk (layout.indent depth ++ c :: rest) kind).IsOwnAt layout depth := by
  refine ⟨?_, ?_, hkind⟩
  · rw [Row.isVisible, Layout.indent, Text.trim_spaces_append, Text.trim_cons_of_not_isBlank hc]
    rfl
  · rw [Row.level, Layout.indent, spacesBefore_spaces_append,
      spacesBefore_cons_of_not_isBlank hc, Nat.add_zero, Nat.mul_div_cancel_left _ layout.width_pos]

/-- The rows of a flush line: one at its depth, and those that carry on. -/
theorem Entry.rows_of_isFlushAt (h : entry.IsFlushAt depth) (layout : Layout)
    (hkind : kind ≠ .carriedOn) :
    ∃ row more, entry.rows layout kind = row :: more ∧ row.IsOwnAt layout depth ∧
      ∀ row ∈ more, row.kind = .carriedOn := by
  obtain ⟨entryDepth, text⟩ := entry
  obtain ⟨⟨c, rest, rfl, hc⟩, rfl⟩ := h
  have hlf : '\n' ∉ [c] := by
    rw [List.mem_singleton]
    rintro rfl
    exact absurd hc (by decide)
  obtain ⟨part, more, hrows, hmore⟩ := Entry.rows_append hlf layout kind entryDepth rest
  exact ⟨_, more, hrows, isOwnAt_cons layout entryDepth hc part hkind, hmore⟩

/-- The rows of a flush line, and stepped rows one level deeper. -/
theorem isStepped_rows_append (h : entry.IsFlushAt depth) (hkind : kind ≠ .carriedOn)
    (hrest : IsStepped layout (depth + 1) rest) :
    IsStepped layout depth (entry.rows layout kind ++ rest) := by
  obtain ⟨row, more, hrows, hrow, hmore⟩ := Entry.rows_of_isFlushAt h layout hkind
  rw [hrows]
  exact isStepped_headed hrow hmore hrest

theorem isStepped_rows (h : entry.IsFlushAt depth) (hkind : kind ≠ .carriedOn) :
    IsStepped layout depth (entry.rows layout kind) := by
  have happend := isStepped_rows_append h hkind (isStepped_nil layout (depth + 1))
  rwa [List.append_nil] at happend

/-- The rows of flush lines at one depth. -/
theorem isStepped_flatMap {entries : List Entry} (h : ∀ entry ∈ entries, entry.IsFlushAt depth) :
    IsStepped layout depth (entries.flatMap (Entry.rows layout .own)) := by
  induction entries with
  | nil => exact isStepped_nil layout depth
  | cons entry entries ih =>
    obtain ⟨hentry, hentries⟩ := List.forall_mem_cons.1 h
    rw [List.flatMap_cons]
    exact (isStepped_rows hentry (by decide)).append (ih hentries)

/-- The rows of lines that the first of them heads. -/
theorem isStepped_rowsAs_headed {entries : List Entry} (h : IsFlushHeaded depth entries)
    (hkind : kind ≠ .carriedOn) : IsStepped layout depth (rowsAs layout kind .own entries) := by
  cases entries with
  | nil => exact isStepped_nil layout depth
  | cons entry entries =>
    exact isStepped_rows_append (h.head entry rfl) hkind (isStepped_flatMap h.tail)

/-- The rows of lines that carry on the first of them. -/
theorem isStepped_rowsAs_carriedOn {entries : List Entry}
    (h : ∀ entry ∈ entries.head?, entry.IsFlushAt depth) (hkind : kind ≠ .carriedOn) :
    IsStepped layout depth (rowsAs layout kind .carriedOn entries) := by
  cases entries with
  | nil => exact isStepped_nil layout depth
  | cons entry entries =>
    obtain ⟨row, more, hrows, hrow, hmore⟩ := Entry.rows_of_isFlushAt (h entry rfl) layout hkind
    have hcarried : ∀ row ∈ more ++ entries.flatMap (Entry.rows layout .carriedOn),
        row.kind = .carriedOn :=
      List.forall_mem_append.2 ⟨hmore, fun _ => kind_of_mem_flatMap_rows⟩
    have hall := isStepped_headed hrow hcarried (isStepped_nil layout (depth + 1))
    rw [List.append_nil] at hall
    rwa [rowsAs, hrows]

/-! ## Rows of nodes -/

theorem tagKind_ne_carriedOn (e : Element) : tagKind e ≠ .carriedOn := by
  rw [tagKind]
  split <;> exact nofun

theorem inlineKind_ne_carriedOn (e : Element) (content : Text) :
    inlineKind e content ≠ .carriedOn := by
  rw [inlineKind]
  split
  · exact nofun
  · exact tagKind_ne_carriedOn e

theorem commentKind_ne_carriedOn (content : Text) : commentKind content ≠ .carriedOn := by
  rw [commentKind]
  split <;> exact nofun

/-- The first line of a comment is flush. -/
theorem head_commentEntries_isFlushAt (depth : Nat) {content : Text}
    (h : ¬Directive.EndsInIndent content) :
    ∀ entry ∈ (commentEntries depth content).head?, entry.IsFlushAt depth := by
  by_cases hkind : (Directive.decode content).kind = some .codeLines
  · rw [commentEntries_of_codeLines depth h hkind]
    exact fun entry hentry => Option.some.inj hentry ▸ isFlushAt_cons depth (by decide) _
  · exact (commentEntries_isFlushHeaded depth h hkind).head

mutual

/-- The rows of a node are stepped, unless a comment asks for deeper indentation. -/
theorem nodeRows_isStepped (layout : Layout) (depth : Nat) : (node : Node) → node.IsProper →
    (∀ content ∈ node.comments, ¬Directive.EndsInIndent content) →
      IsStepped layout depth (nodeRows layout depth node)
  | .text content, _, _ => by
    rw [nodeRows, rowsAs_self]
    exact isStepped_flatMap (textEntries_isFlushAt depth content)
  | .comment content, _, h => by
    rw [nodeRows]
    exact isStepped_rowsAs_carriedOn
      (head_commentEntries_isFlushAt depth (h content (by simp [Node.comments])))
      (commentKind_ne_carriedOn content)
  | .block isOutput code children, hproper, h => by
    rw [nodeRows]
    split
    · exact nodesRows_isStepped layout depth children hproper.2 h
    · exact isStepped_rows_append (blockLine_isFlushAt depth isOutput code) nofun
        (nodesRows_isStepped layout (depth + 1) children hproper.2 h)
  | .element name attributes children, hproper, h => by
    have hbare := bare_isFlushAt depth hproper.1.name_eq
    have hkind := tagKind_ne_carriedOn ⟨name, attributes⟩
    simp only [nodeRows]
    split
    · exact isStepped_rows hbare hkind
    · split
      · exact isStepped_rowsAs_headed (inlineEntries_isFlushHeaded depth hproper.1.name_eq _)
          (inlineKind_ne_carriedOn _ _)
      · exact isStepped_rows_append hbare hkind
          (nodesRows_isStepped layout (depth + 1) children hproper.2 h)

/-- The rows of nodes side by side are stepped. -/
theorem nodesRows_isStepped (layout : Layout) (depth : Nat) : (nodes : List Node) →
    nodesProper nodes → (∀ content ∈ nodesComments nodes, ¬Directive.EndsInIndent content) →
      IsStepped layout depth (nodesRows layout depth nodes)
  | [], _, _ => isStepped_nil layout depth
  | node :: nodes, hproper, h => by
    rw [nodesComments, List.forall_mem_append] at h
    rw [nodesRows]
    exact (nodeRows_isStepped layout depth node hproper.1 h.1).append
      (nodesRows_isStepped layout depth nodes hproper.2 h.2)

end

end Writer

namespace Markup.Document

open Writer

variable {document : Document}

/-- The rows of a document are stepped, unless a comment asks for deeper indentation. -/
theorem rows_isStepped (layout : Layout) (hproper : nodesProper document.nodes)
    (h : ∀ content ∈ document.comments, ¬Directive.EndsInIndent content) :
    IsStepped layout 0 (document.rows layout) := by
  have hnodes := nodesRows_isStepped layout 0 document.nodes hproper h
  rw [rows]
  cases document.doctype with
  | none => exact hnodes
  | some doctype =>
    refine IsStepped.append (isStepped_rows ?_ nofun) hnodes
    cases doctype <;> exact isFlushAt_cons 0 (by decide) _

/-- What is read back of a document are its rows, those that are blank left out. -/
theorem map_level_ofSource_toSlim (layout : Layout) (document : Document) :
    (SlimLine.ofSource layout (document.toSlim layout)).map (·.level) =
      (visibleRows (document.rows layout)).map (Row.level layout) := by
  by_cases hnil : document.entries = []
  · have hrows : document.rows layout = [] := by
      rw [← List.map_eq_nil_iff (f := Row.text), map_text_rows, hnil]
      rfl
    rw [toSlim, hnil, hrows]
    rfl
  · rw [SlimLine.ofSource, SlimLine.map_level_readAll, toSlim, lines_unlines_entries layout hnil,
      ← map_text_rows, visibleRows, List.map_map, List.filter_map, List.map_map]
    simp only [Function.comp_def, Text.trim_dropFinalReturn, spacesBefore_dropFinalReturn]
    rfl

end Markup.Document

end SlimTemplate
