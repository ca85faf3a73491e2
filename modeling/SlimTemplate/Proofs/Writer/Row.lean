import SlimTemplate.Proofs.Writer.Line
import SlimTemplate.Repair.Basic

/-!
# Rows of a written document

What is written becomes rows, one for each physical line. Most rows are the writer's own: a tag
line, a line of text behind a bar, or the line that begins code or a comment. Some carry on what
an earlier row began: the body of a block of code, the further lines of an output expression or a
comment, and whatever follows a line feed in what is written as one line. A few are irregular. They
break what holds of all other rows: that a tag line is read as one head, that text behind a head
does not begin with a slash, and that a line stands no deeper than its node.

## Main definitions

* `Writer.Row`: a physical line and its kind.
* `Markup.Element.isWhole`: whether the opening of an element is read as one head.
* `Writer.nodeRows`: the rows of a node.
* `Markup.Document.rows`: the rows of a document.

## Main statements

* `Markup.Document.toSlim_eq_unlines`: a document as Slim is its rows, each ended by a line feed.
-/

namespace SlimTemplate

/-- Whether the opening of an element is read as one head: a blank behind it ends the head, and
nothing before that blank is text. -/
def Markup.Element.isWhole (e : Markup.Element) : Bool :=
  Text.trim e.opening = e.opening && !e.opening.contains '\n' &&
    (Head.scan? (e.opening ++ [' '])).any fun head =>
      !head.remainder.isEmpty && head.textBehind?.isNone

namespace Writer

open Markup

/-- What a row is to the line that it belongs to. -/
inductive RowKind where
  /-- The writer's own line. -/
  | own
  /-- The row goes on with what an earlier row began. -/
  | carriedOn
  /-- A line that breaks what holds of all others. -/
  | irregular
  deriving DecidableEq, Repr

/-- A physical line. -/
structure Row where
  text : Text
  kind : RowKind
  deriving DecidableEq, Repr

/-- The rows of a line. Whatever follows a line feed carries on. -/
def Entry.rows (layout : Layout) (kind : RowKind) (entry : Entry) : List Row :=
  match Text.splitOn '\n' (entry.line layout) with
  | [] => []
  | first :: more => ⟨first, kind⟩ :: more.map fun text => ⟨text, .carriedOn⟩

/-- The rows of lines of which the first is of one kind and the others of another. -/
def rowsAs (layout : Layout) (first others : RowKind) : List Entry → List Row
  | [] => []
  | entry :: more => entry.rows layout first ++ more.flatMap (Entry.rows layout others)

/-- The kind of a bare tag line. -/
def tagKind (e : Element) : RowKind :=
  if e.isWhole then .own else .irregular

/-- The kind of a tag line with text. Preformatted text is written behind its head even if it
starts with a slash. -/
def inlineKind (e : Element) (content : Text) : RowKind :=
  if e.name = preformatted && Repair.startsWithOneSlash (Text.trim content) then .irregular
  else tagKind e

/-- The kind of the first row of a comment. A block of code that is to stand deeper than the nodes
around it begins with a word that a repair takes for text. -/
def commentKind (content : Text) : RowKind :=
  let decoded := Directive.decode content
  if decoded.kind = some .codeLines && decoded.extraIndent ≠ 0 then .irregular else .own

mutual

/-- The rows of a node. -/
def nodeRows (layout : Layout) (depth : Nat) : Node → List Row
  | .text content => rowsAs layout .own .own (textEntries depth content)
  | .comment content =>
    rowsAs layout (commentKind content) .carriedOn (commentEntries depth content)
  | .block isOutput code children =>
    if code.isEmpty then nodesRows layout depth children
    else
      Entry.rows layout .own ⟨depth, blockLine isOutput code⟩ ++
        nodesRows layout (depth + 1) children
  | .element name attributes children =>
    let e : Element := ⟨name, attributes⟩
    let bare := Entry.rows layout (tagKind e) ⟨depth, e.opening⟩
    if isVoid name || children.isEmpty then bare
    else
      match singleText? children with
      | some content => rowsAs layout (inlineKind e content) .own (inlineEntries depth e content)
      | none => bare ++ nodesRows layout (depth + 1) children

/-- The rows of nodes side by side. -/
def nodesRows (layout : Layout) (depth : Nat) : List Node → List Row
  | [] => []
  | node :: nodes => nodeRows layout depth node ++ nodesRows layout depth nodes

end

/-! ## Rows of a line -/

theorem Entry.rows_of_not_mem {text : Text} (h : '\n' ∉ text) (layout : Layout)
    (kind : RowKind) (depth : Nat) :
    (Entry.mk depth text).rows layout kind = [⟨layout.indent depth ++ text, kind⟩] := by
  have hline : '\n' ∉ layout.indent depth ++ text :=
    fun hmem => (List.mem_append.1 hmem).elim (layout.lineFeed_not_mem_indent depth) h
  rw [Entry.rows, Entry.line, Text.splitOn_of_not_mem hline]
  rfl

/-- Only the first row of a line has the kind of the line. -/
theorem Entry.rows_append {before : Text} (h : '\n' ∉ before) (layout : Layout)
    (kind : RowKind) (depth : Nat) (text : Text) :
    ∃ part more, (Entry.mk depth (before ++ text)).rows layout kind =
        ⟨layout.indent depth ++ (before ++ part), kind⟩ :: more ∧
      ∀ row ∈ more, row.kind = .carriedOn := by
  have hbefore : '\n' ∉ layout.indent depth ++ before :=
    fun hmem => (List.mem_append.1 hmem).elim (layout.lineFeed_not_mem_indent depth) h
  obtain ⟨part, more, hpart⟩ := List.exists_cons_of_ne_nil (Text.splitOn_ne_nil '\n' text)
  have hsplit := Text.splitOn_append hbefore hpart
  rw [List.append_assoc, List.append_assoc] at hsplit
  refine ⟨part, more.map fun text => ⟨text, .carriedOn⟩, ?_, ?_⟩
  · rw [Entry.rows, Entry.line, hsplit]
  · intro row hrow
    obtain ⟨text, -, rfl⟩ := List.mem_map.1 hrow
    rfl

theorem Entry.rows_ne_nil (layout : Layout) (kind : RowKind) (entry : Entry) :
    entry.rows layout kind ≠ [] := by
  obtain ⟨part, more, hrows, -⟩ :=
    Entry.rows_append (List.not_mem_nil (a := '\n')) layout kind entry.depth entry.text
  rw [List.nil_append] at hrows
  simp [hrows]

theorem Entry.kind_of_mem_rows {layout : Layout} {kind : RowKind} {entry : Entry} {row : Row}
    (h : row ∈ entry.rows layout kind) : row.kind = kind ∨ row.kind = .carriedOn := by
  rw [Entry.rows] at h
  split at h
  · cases h
  · rcases List.mem_cons.1 h with rfl | h
    · exact Or.inl rfl
    · obtain ⟨text, -, rfl⟩ := List.mem_map.1 h
      exact Or.inr rfl

theorem kind_of_mem_flatMap_rows {layout : Layout} {entries : List Entry} {row : Row}
    (h : row ∈ entries.flatMap (Entry.rows layout .carriedOn)) : row.kind = .carriedOn := by
  obtain ⟨entry, -, h⟩ := List.mem_flatMap.1 h
  exact (Entry.kind_of_mem_rows h).elim id id

/-- Where all lines but the first carry on, all rows but the first do. -/
theorem rowsAs_carriedOn {before : Text} (h : '\n' ∉ before) (layout : Layout) (kind : RowKind)
    (depth : Nat) (text : Text) (entries : List Entry) :
    ∃ part more, rowsAs layout kind .carriedOn (⟨depth, before ++ text⟩ :: entries) =
        ⟨layout.indent depth ++ (before ++ part), kind⟩ :: more ∧
      ∀ row ∈ more, row.kind = .carriedOn := by
  obtain ⟨part, more, hrows, hmore⟩ := Entry.rows_append h layout kind depth text
  refine ⟨part, more ++ entries.flatMap (Entry.rows layout .carriedOn), ?_, ?_⟩
  · rw [rowsAs, hrows, List.cons_append]
  · intro row hrow
    rcases List.mem_append.1 hrow with hrow | hrow
    · exact hmore row hrow
    · exact kind_of_mem_flatMap_rows hrow

theorem rowsAs_singleton (layout : Layout) (first others : RowKind) (entry : Entry) :
    rowsAs layout first others [entry] = entry.rows layout first :=
  List.append_nil _

theorem rowsAs_self (layout : Layout) (kind : RowKind) (entries : List Entry) :
    rowsAs layout kind kind entries = entries.flatMap (Entry.rows layout kind) := by
  cases entries with
  | nil => rfl
  | cons entry more => rw [rowsAs, List.flatMap_cons]

/-! ## Rows as text -/

/-- The physical lines of lines. -/
def physicalLines (layout : Layout) (entries : List Entry) : List Text :=
  entries.flatMap fun entry => Text.splitOn '\n' (entry.line layout)

theorem physicalLines_append (layout : Layout) (a b : List Entry) :
    physicalLines layout (a ++ b) = physicalLines layout a ++ physicalLines layout b :=
  List.flatMap_append

theorem physicalLines_singleton (layout : Layout) (entry : Entry) :
    physicalLines layout [entry] = Text.splitOn '\n' (entry.line layout) :=
  List.flatMap_singleton _ _

theorem Entry.map_text_rows (layout : Layout) (kind : RowKind) (entry : Entry) :
    (entry.rows layout kind).map (·.text) = physicalLines layout [entry] := by
  rw [Entry.rows, physicalLines_singleton]
  split
  · next h => rw [h]; rfl
  · next first more h =>
    rw [h, List.map_cons, List.map_map]
    exact congrArg (first :: ·) (List.map_id more)

theorem map_text_rowsAs (layout : Layout) (first others : RowKind) (entries : List Entry) :
    (rowsAs layout first others entries).map (·.text) = physicalLines layout entries := by
  cases entries with
  | nil => rfl
  | cons entry more =>
    rw [rowsAs, List.map_append, Entry.map_text_rows, List.map_flatMap,
      ← List.singleton_append (l := more), physicalLines_append]
    congr 1
    exact List.flatMap_congr fun entry _ =>
      (Entry.map_text_rows layout others entry).trans (physicalLines_singleton layout entry)

mutual

theorem map_text_nodeRows (layout : Layout) (depth : Nat) :
    ∀ node : Node, (nodeRows layout depth node).map (·.text) =
      physicalLines layout (nodeEntries depth node)
  | .text content => by
    rw [nodeRows, nodeEntries, map_text_rowsAs]
  | .comment content => by
    rw [nodeRows, nodeEntries, map_text_rowsAs]
  | .block isOutput code children => by
    rw [nodeRows, nodeEntries]
    split
    · exact map_text_nodesRows layout depth children
    · rw [List.map_append, Entry.map_text_rows, map_text_nodesRows layout (depth + 1) children,
        ← physicalLines_append, List.singleton_append]
  | .element name attributes children => by
    rw [nodeRows, nodeEntries]
    split
    · exact Entry.map_text_rows _ _ _
    · cases singleText? children with
      | some content => exact map_text_rowsAs _ _ _ _
      | none =>
        show List.map Row.text (Entry.rows _ _ _ ++ nodesRows _ _ _) = physicalLines _ (_ :: _)
        rw [List.map_append, Entry.map_text_rows, map_text_nodesRows layout (depth + 1) children,
          ← physicalLines_append, List.singleton_append]

theorem map_text_nodesRows (layout : Layout) (depth : Nat) :
    ∀ nodes : List Node, (nodesRows layout depth nodes).map (·.text) =
      physicalLines layout (nodesEntries depth nodes)
  | [] => rfl
  | node :: nodes => by
    rw [nodesRows, nodesEntries, List.map_append, map_text_nodeRows layout depth node,
      map_text_nodesRows layout depth nodes, physicalLines_append]

end

theorem physicalLines_ne_nil (layout : Layout) (entry : Entry) (entries : List Entry) :
    physicalLines layout (entry :: entries) ≠ [] := by
  rw [physicalLines, List.flatMap_cons]
  exact List.append_ne_nil_of_left_ne_nil (Text.splitOn_ne_nil _ _) _

theorem unlines_physicalLines (layout : Layout) (entries : List Entry) :
    Text.unlines (physicalLines layout entries) =
      Text.unlines (entries.map (Entry.line layout)) := by
  -- Cutting each line and joining all parts again leaves the lines as they were.
  induction entries with
  | nil => rfl
  | cons entry entries ih =>
    have hsplit : physicalLines layout (entry :: entries) =
        Text.splitOn '\n' (entry.line layout) ++ physicalLines layout entries :=
      List.flatMap_cons
    cases entries with
    | nil =>
      rw [hsplit, physicalLines, List.flatMap_nil, List.append_nil, Text.unlines_splitOn]
      rfl
    | cons next entries =>
      rw [hsplit, Text.unlines_append (Text.splitOn_ne_nil _ _) (physicalLines_ne_nil _ _ _),
        Text.unlines_splitOn, ih, List.map_cons (l := next :: entries), Text.unlines_cons (by simp)]

end Writer

namespace Markup.Document

/-- The rows of a document. -/
def rows (layout : Layout) (document : Document) : List Writer.Row :=
  (match document.doctype with
    | some doctype => Writer.Entry.rows layout .own ⟨0, doctype.line⟩
    | none => []) ++
    Writer.nodesRows layout 0 document.nodes

theorem map_text_rows (layout : Layout) (document : Document) :
    (document.rows layout).map (·.text) = Writer.physicalLines layout document.entries := by
  rw [rows, entries, List.map_append, Writer.physicalLines_append, Writer.map_text_nodesRows]
  cases document.doctype with
  | none => rfl
  | some doctype => rw [Writer.Entry.map_text_rows]

/-- A document as Slim is its rows. -/
theorem toSlim_eq_unlines (layout : Layout) (document : Document) :
    document.toSlim layout = Text.unlines ((document.rows layout).map (·.text)) ++ ['\n'] := by
  rw [toSlim, map_text_rows, Writer.unlines_physicalLines]

end Markup.Document

end SlimTemplate
