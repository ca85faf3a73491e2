import SlimTemplate.Proofs.Validation.Jump
import SlimTemplate.Proofs.Writer.Step

/-!
# Jumps in converted documents

A check of levels finds a line of a converted document too deep only where a row carries on. If no
entry breaks, those rows are the bodies of blocks of code. They keep the indentation that they do
not share, so a block is read back without a jump exactly if its lines are written in steps: the
first one less than a level from the margin, and each other at most one level deeper than the line
before it.

## Main definitions

* `Markup.Node.isStepwise`: whether the blocks of code in a node are written in steps.
* `Writer.Grade`: what the levels of some entries are.

## Main statements

* `htmlToSlim_hasJump_iff`: when a converted document has a line that is too deep.
-/

namespace SlimTemplate

namespace Markup

/-- Whether lines of code go down in steps, the first of them to a level at most. -/
def stepsFrom (layout : Layout) : (allowed : Nat) → List Text → Bool
  | _, [] => true
  | allowed, line :: more =>
    let level := spacesBefore line / layout.width
    level ≤ allowed && stepsFrom layout (level + 1) more

/-- Whether a comment is no block of code, or one whose lines go down in steps from the margin. -/
def commentIsStepwise (layout : Layout) (content : Text) : Bool :=
  let decoded := Directive.decode content
  decoded.kind ≠ some .codeLines || stepsFrom layout 0 (Writer.flushLines decoded.body)

mutual

/-- Whether the blocks of code in a node, as far as it is written, go down in steps. -/
def Node.isStepwise (layout : Layout) : Node → Bool
  | .text _ => true
  | .comment content => commentIsStepwise layout content
  | .block _ _ children => nodesAreStepwise layout children
  | .element name _ children => Writer.isVoid name || nodesAreStepwise layout children

/-- Whether the blocks of code in nodes side by side go down in steps. -/
def nodesAreStepwise (layout : Layout) : List Node → Bool
  | [] => true
  | node :: nodes => node.isStepwise layout && nodesAreStepwise layout nodes

end

end Markup

namespace Writer

open Markup

/-- Where one of two rows carries on, the second is at most one level deeper. -/
def Row.StepsWhereCarriedOn (layout : Layout) (row next : Row) : Prop :=
  row.kind = .carriedOn ∨ next.kind = .carriedOn → next.level layout ≤ row.level layout + 1

/-- Whether an entry is at most one level deeper than the entry before it. -/
def Entry.Steps (layout : Layout) (entry next : Entry) : Prop :=
  next.level layout ≤ entry.level layout + 1

/-- What is to be known of the levels of entries: that the first stands at a depth and none less
deep, and whether each goes down from the one before it by at most one level. -/
structure Grade (layout : Layout) (depth : Nat) (entries : List Entry) (steps : Bool) : Prop where
  head : ∀ entry ∈ entries.head?, entry.level layout = depth
  deep : ∀ entry ∈ entries, depth ≤ entry.level layout
  chain : entries.IsChain (Entry.Steps layout) ↔ steps = true

variable {layout : Layout} {depth : Nat} {entry : Entry} {entries a b : List Entry} {x y : Bool}

theorem Grade.nil (layout : Layout) (depth : Nat) : Grade layout depth [] true :=
  ⟨by simp, by simp, iff_of_true .nil rfl⟩

theorem Grade.append (ha : Grade layout depth a x) (hb : Grade layout depth b y) :
    Grade layout depth (a ++ b) (x && y) := by
  refine ⟨?_, List.forall_mem_append.2 ⟨ha.deep, hb.deep⟩, ?_⟩
  · rw [List.head?_append]
    intro entry hentry
    rcases Option.or_eq_some_iff.1 hentry with hentry | ⟨-, hentry⟩
    · exact ha.head entry hentry
    · exact hb.head entry hentry
  · have hjoint : ∀ last ∈ a.getLast?, ∀ first ∈ b.head?, last.Steps layout first := by
      intro last hlast first hfirst
      rw [Entry.Steps, hb.head first hfirst]
      exact Nat.le_succ_of_le (ha.deep last (List.mem_of_getLast? hlast))
    rw [List.isChain_append, ha.chain, hb.chain, and_iff_left hjoint, Bool.and_eq_true]

/-- An entry at a depth and entries one level deeper. -/
theorem Grade.cons (h : entry.level layout = depth) (hrest : Grade layout (depth + 1) entries x) :
    Grade layout depth (entry :: entries) x := by
  refine ⟨fun e he => Option.some.inj he ▸ h, List.forall_mem_cons.2 ⟨h.ge, ?_⟩, ?_⟩
  · exact fun e he => Nat.le_of_succ_le (hrest.deep e he)
  · have hfirst : ∀ first ∈ entries.head?, entry.Steps layout first := by
      intro first hmem
      rw [Entry.Steps, hrest.head first hmem, h]
    rw [List.isChain_cons, and_iff_right hfirst, hrest.chain]

theorem Grade.singleton (h : entry.level layout = depth) : Grade layout depth [entry] true :=
  .cons h (.nil layout (depth + 1))

/-- Flush entries at one depth. -/
theorem Grade.of_isFlushAt (h : ∀ entry ∈ entries, entry.IsFlushAt depth) :
    Grade layout depth entries true := by
  induction entries with
  | nil => exact .nil layout depth
  | cons entry entries ih =>
    obtain ⟨hentry, hentries⟩ := List.forall_mem_cons.1 h
    exact (Grade.singleton (hentry.level_eq layout)).append (ih hentries)

/-- Flush entries that the first of them heads. -/
theorem Grade.of_isFlushHeaded (h : IsFlushHeaded depth entries) :
    Grade layout depth entries true := by
  cases entries with
  | nil => exact .nil layout depth
  | cons entry entries =>
    exact .cons ((h.head entry rfl).level_eq layout) (.of_isFlushAt h.tail)

/-! ## Blocks of code -/

theorem level_le_iff (line : Text) (allowed : Nat) :
    (Entry.mk depth line).level layout ≤ depth + allowed ↔
      spacesBefore line / layout.width ≤ allowed := by
  rw [Entry.level, Nat.add_le_add_iff_left]

/-- The lines of code at a depth go down in steps from an entry if they do so by themselves. -/
theorem isChain_codeLines (layout : Layout) (depth : Nat) {allowed : Nat}
    (h : entry.level layout + 1 = depth + allowed) (lines : List Text) :
    (entry :: lines.map (Entry.mk depth)).IsChain (Entry.Steps layout) ↔
      stepsFrom layout allowed lines = true := by
  induction lines generalizing entry allowed with
  | nil => exact iff_of_true (.singleton entry) rfl
  | cons line lines ih =>
    have hlevel : (Entry.mk depth line).level layout + 1 =
        depth + (spacesBefore line / layout.width + 1) := rfl
    rw [List.map_cons, List.isChain_cons_cons, ih hlevel, Entry.Steps, h, level_le_iff, stepsFrom,
      Bool.and_eq_true, decide_eq_true_iff]

/-- The first of the lines that go down in steps from the margin is at the margin. -/
theorem commentEntries_grade (depth : Nat) {content : Text}
    (h : ¬Directive.EndsInIndent content) :
    Grade layout depth (commentEntries depth content) (commentIsStepwise layout content) := by
  rw [commentIsStepwise]
  by_cases hkind : (Directive.decode content).kind = some .codeLines
  · have hruby : (Entry.mk depth "ruby:".toList).level layout = depth :=
      (isFlushAt_cons depth (by decide) _).level_eq layout
    rw [commentEntries_of_codeLines depth h hkind]
    refine ⟨fun e he => Option.some.inj he ▸ hruby, List.forall_mem_cons.2 ⟨hruby.ge, ?_⟩, ?_⟩
    · exact List.forall_mem_map.2 fun line _ =>
        Nat.le_of_succ_le (Entry.depth_le_level layout ⟨depth + 1, line⟩)
    · rw [isChain_codeLines layout (depth + 1) (by rw [hruby, Nat.add_zero])]
      simp [hkind]
  · simpa [hkind] using Grade.of_isFlushHeaded (commentEntries_isFlushHeaded depth h hkind)

/-! ## Nodes -/

mutual

/-- The entries of a node go down in steps exactly if the blocks of code in it do. -/
theorem nodeEntries_grade (layout : Layout) (depth : Nat) : (node : Node) → node.IsProper →
    (∀ content ∈ node.comments, ¬Directive.EndsInIndent content) →
      Grade layout depth (nodeEntries depth node) (node.isStepwise layout)
  | .text content, _, _ => by
    rw [nodeEntries, Node.isStepwise]
    exact .of_isFlushAt (textEntries_isFlushAt depth content)
  | .comment content, _, h => by
    rw [nodeEntries, Node.isStepwise]
    exact commentEntries_grade depth (h content (by simp [Node.comments]))
  | .block isOutput code children, hproper, h => by
    rw [nodeEntries, Node.isStepwise]
    split
    · exact nodesEntries_grade layout depth children hproper.2 h
    · exact .cons ((blockLine_isFlushAt depth isOutput code).level_eq layout)
        (nodesEntries_grade layout (depth + 1) children hproper.2 h)
  | .element name attributes children, hproper, h => by
    have hbare := (bare_isFlushAt depth hproper.1.name_eq).level_eq layout
    have hchildren := nodesEntries_grade layout (depth + 1) children hproper.2 h
    simp only [nodeEntries, Node.isStepwise]
    cases hvoid : isVoid name with
    | true => exact .singleton hbare
    | false =>
      rw [Bool.false_or, Bool.false_or]
      split
      · next hnil =>
        rw [List.isEmpty_iff.1 hnil]
        exact .singleton hbare
      · split
        · next content hsingle =>
          have hsteps : nodesAreStepwise layout children = true := by
            unfold singleText? at hsingle
            split at hsingle
            · rfl
            · cases hsingle
          rw [hsteps]
          exact .of_isFlushHeaded (inlineEntries_isFlushHeaded depth hproper.1.name_eq _)
        · exact .cons hbare hchildren

/-- The entries of nodes side by side go down in steps exactly if the blocks of code in them do. -/
theorem nodesEntries_grade (layout : Layout) (depth : Nat) : (nodes : List Node) →
    nodesProper nodes → (∀ content ∈ nodesComments nodes, ¬Directive.EndsInIndent content) →
      Grade layout depth (nodesEntries depth nodes) (nodesAreStepwise layout nodes)
  | [], _, _ => .nil layout depth
  | node :: nodes, hproper, h => by
    rw [nodesComments, List.forall_mem_append] at h
    rw [nodesEntries, nodesAreStepwise]
    exact (nodeEntries_grade layout depth node hproper.1 h.1).append
      (nodesEntries_grade layout depth nodes hproper.2 h.2)

end

end Writer

namespace Markup.Document

open Writer

variable {document : Document}

/-- The entries of a document go down in steps exactly if the blocks of code in it do. -/
theorem entries_grade (layout : Layout) (hproper : nodesProper document.nodes)
    (h : ∀ content ∈ document.comments, ¬Directive.EndsInIndent content) :
    Grade layout 0 document.entries (nodesAreStepwise layout document.nodes) := by
  have hnodes := nodesEntries_grade layout 0 document.nodes hproper h
  have hdoctype : ∀ doctype : Doctype, (Entry.mk 0 doctype.line).level layout = 0 := by
    intro doctype
    cases doctype <;> exact (isFlushAt_cons 0 (by decide) _).level_eq layout
  rw [entries]
  cases document.doctype with
  | none => exact hnodes
  | some doctype => simpa using (Grade.singleton (hdoctype doctype)).append hnodes

end Markup.Document

namespace Validation

open Markup Writer

variable {document : Document}

/-- Rows that go down in steps do so also where they carry on, if they are checked there. -/
theorem isChain_of_isChain_carriedOn {layout : Layout} {rows : List Row}
    (hsteps : rows.IsChain (Row.Steps layout))
    (hcarried : rows.IsChain (Row.StepsWhereCarriedOn layout)) :
    rows.IsChain fun row next => next.level layout ≤ row.level layout + 1 := by
  rw [List.isChain_iff_forall_rel_of_append_cons_cons] at hsteps hcarried ⊢
  intro row next before after heq
  by_cases hcarry : row.kind = .carriedOn ∨ next.kind = .carriedOn
  · exact hcarried heq hcarry
  · rw [not_or] at hcarry
    exact hsteps heq hcarry.1 hcarry.2

/-- A check of levels looks at nothing but the levels that are read. -/
theorem hasJump_iff_levels (options : ValidationOptions) {source : Text} {levels : List Nat}
    (h : (SlimLine.ofSource options.layout source).map (·.level) = levels) :
    (validate options source).hasJump = false ↔
      (∀ level ∈ levels.head?, level = 0) ∧
        levels.IsChain fun level next => next ≤ level + 1 := by
  rw [hasJump_validate_eq_false_iff, ← h, List.isChain_map, List.head?_map]
  simp

/-- A document that asks for no deeper indentation has a line that is too deep exactly if a row goes
down more than one level where it or the row before it carries on. -/
theorem hasJump_toSlim_iff (options : ValidationOptions) (hproper : nodesProper document.nodes)
    (h : ∀ content ∈ document.comments, ¬Directive.EndsInIndent content) :
    (validate options (document.toSlim options.layout)).hasJump = false ↔
      (visibleRows (document.rows options.layout)).IsChain
        (Row.StepsWhereCarriedOn options.layout) := by
  have hstepped := document.rows_isStepped options.layout hproper h
  rw [hasJump_iff_levels options (document.map_level_ofSource_toSlim options.layout),
    List.isChain_map, List.head?_map, and_iff_right]
  · constructor
    · exact List.IsChain.imp fun row next hsteps _ => hsteps
    · exact isChain_of_isChain_carriedOn hstepped.chain
  · intro level hlevel
    obtain ⟨row, hrow, rfl⟩ := Option.map_eq_some_iff.1 hlevel
    exact (hstepped.head_visibleRows row hrow).level_eq

/-- If no entry of it breaks, such a document has a line that is too deep exactly if a block of code
in it is not written in steps. -/
theorem hasJump_toSlim_iff_isStepwise (options : ValidationOptions)
    (hproper : nodesProper document.nodes)
    (h : ∀ content ∈ document.comments, ¬Directive.EndsInIndent content)
    (hbreak : nodesBreak document.nodes = false) :
    (validate options (document.toSlim options.layout)).hasJump = false ↔
      nodesAreStepwise options.layout document.nodes = true := by
  have hgrade := document.entries_grade options.layout hproper h
  have hone := (hbreak ▸ document.entries_break hproper).isOneLine
  have hread := congrArg (List.map Prod.snd) (ofSource_unlines options.layout hone)
  rw [List.map_map, List.map_map, ← Document.toSlim] at hread
  rw [hasJump_iff_levels options hread, List.isChain_map, List.head?_map, and_iff_right]
  · exact hgrade.chain
  · intro level hlevel
    obtain ⟨entry, hentry, rfl⟩ := Option.map_eq_some_iff.1 hlevel
    exact hgrade.head entry hentry

end Validation

/-- A converted text that asks for no deeper indentation has a line that is too deep exactly if a
row goes down more than one level where it or the row before it carries on what the converter does
not lay out. If no entry breaks, this means that a block of code is not written in steps. -/
theorem htmlToSlim_hasJump_iff (options : ValidationOptions) (source : Text)
    (h : ∀ content ∈ (Markup.Document.ofHtml source).comments,
      ¬Directive.EndsInIndent content) :
    let document := Markup.Document.ofHtml source
    let report := validate options (htmlToSlim options.layout source)
    (report.hasJump = false ↔
      (Writer.visibleRows (document.rows options.layout)).IsChain
        (Writer.Row.StepsWhereCarriedOn options.layout)) ∧
      (Markup.nodesBreak document.nodes = false →
        (report.hasJump = false ↔
          Markup.nodesAreStepwise options.layout document.nodes = true)) := by
  have hproper := Markup.Document.ofHtml_isProper source
  exact ⟨Validation.hasJump_toSlim_iff options hproper h,
    Validation.hasJump_toSlim_iff_isStepwise options hproper h⟩

/-- A block of code in an element, with one line that goes down one level. -/
def steppedBlock : Text :=
  "<div><%\nif a\n  b\nend\n%></div>".toList

theorem steppedBlock_not_endsInIndent :
    ∀ content ∈ (Markup.Document.ofHtml steppedBlock).comments,
      ¬Directive.EndsInIndent content := by
  have hdigits : ∀ content ∈ (Markup.Document.ofHtml steppedBlock).comments,
      (Text.trim content).getLast?.any Text.isDecimalDigit = false := by
    decide +kernel
  exact fun content hcontent => Directive.not_endsInIndent (hdigits content hcontent)

/-- With two spaces for each level nothing in this block is too deep. -/
theorem htmlToSlim_steppedBlock :
    (∀ content ∈ (Markup.Document.ofHtml steppedBlock).comments,
        ¬Directive.EndsInIndent content) ∧
      Markup.nodesBreak (Markup.Document.ofHtml steppedBlock).nodes = false ∧
      Markup.nodesAreStepwise .standard (Markup.Document.ofHtml steppedBlock).nodes = true ∧
      (validate .standard (htmlToSlim .standard steppedBlock)).hasJump = false := by
  have hbreak : Markup.nodesBreak (Markup.Document.ofHtml steppedBlock).nodes = false := by
    decide +kernel
  have hsteps :
      Markup.nodesAreStepwise .standard (Markup.Document.ofHtml steppedBlock).nodes = true := by
    decide +kernel
  have hiff := htmlToSlim_hasJump_iff .standard steppedBlock steppedBlock_not_endsInIndent
  exact ⟨steppedBlock_not_endsInIndent, hbreak, hsteps, (hiff.2 hbreak).2 hsteps⟩

/-- Code that goes down three levels at once is written as it is. -/
theorem hasJump_htmlToSlim_deepCode :
    let source := "<%\nif a\n        b\nend\n%>".toList
    (∀ content ∈ (Markup.Document.ofHtml source).comments,
        ¬Directive.EndsInIndent content) ∧
      (validate .standard (htmlToSlim .standard source)).hasJump = true := by
  refine ⟨?_, by decide +kernel⟩
  have hdigits : ∀ content ∈
        (Markup.Document.ofHtml "<%\nif a\n        b\nend\n%>".toList).comments,
      (Text.trim content).getLast?.any Text.isDecimalDigit = false := by
    decide +kernel
  exact fun content hcontent => Directive.not_endsInIndent (hdigits content hcontent)

end SlimTemplate
