import SlimTemplate.Proofs.Writer.Whole

/-!
# Documents without irregular rows

A row is irregular because of an element whose names are not plain, because of preformatted text
that starts with a slash, or because of a block of code that is to stand deeper than its place.
Nodes without any of these have no irregular rows.

## Main definitions

* `Markup.Node.IsRegular`, `Markup.nodesAreRegular`: nodes without any of these.

## Main statements

* `Markup.Document.kind_ne_irregular`: a document of such nodes has no irregular rows.
-/

namespace SlimTemplate

namespace Markup

mutual

/-- The elements in a node have plain names, no preformatted text in it starts with a slash, and
no block of code in it is to stand deeper than its place. -/
def Node.IsRegular : Node → Prop
  | .text _ => True
  | .comment content =>
    (Directive.decode content).kind = some .codeLines → (Directive.decode content).extraIndent = 0
  | .block _ _ children => nodesAreRegular children
  | .element name attributes children =>
    Element.HasPlainNames ⟨name, attributes⟩ ∧
      (name = Writer.preformatted → ∀ content, singleText? children = some content →
        Repair.startsWithOneSlash (Text.trim content) = false) ∧
      nodesAreRegular children

/-- All nodes side by side are regular. -/
def nodesAreRegular : List Node → Prop
  | [] => True
  | node :: nodes => node.IsRegular ∧ nodesAreRegular nodes

end

end Markup

namespace Writer

open Markup

variable {layout : Layout} {row : Row}

theorem Entry.kind_ne_irregular {kind : RowKind} (hkind : kind ≠ .irregular) {entry : Entry}
    (h : row ∈ entry.rows layout kind) : row.kind ≠ .irregular := by
  rcases Entry.kind_of_mem_rows h with hrow | hrow
  · rwa [hrow]
  · rw [hrow]
    decide

theorem kind_ne_irregular_of_mem_rowsAs {first others : RowKind} (hfirst : first ≠ .irregular)
    (hothers : others ≠ .irregular) {entries : List Entry}
    (h : row ∈ rowsAs layout first others entries) : row.kind ≠ .irregular := by
  cases entries with
  | nil => cases h
  | cons entry entries =>
    rcases List.mem_append.1 h with h | h
    · exact Entry.kind_ne_irregular hfirst h
    · obtain ⟨other, -, h⟩ := List.mem_flatMap.1 h
      exact Entry.kind_ne_irregular hothers h

theorem tagKind_ne_irregular {e : Element} (h : e.HasPlainNames) : tagKind e ≠ .irregular := by
  rw [tagKind, if_pos (e.isWhole_of_hasPlainNames h)]
  decide

theorem inlineKind_ne_irregular {e : Element} (h : e.HasPlainNames) {content : Text}
    (hslash : e.name = preformatted → Repair.startsWithOneSlash (Text.trim content) = false) :
    inlineKind e content ≠ .irregular := by
  rw [inlineKind, if_neg]
  · exact tagKind_ne_irregular h
  · intro hpre
    rw [Bool.and_eq_true, decide_eq_true_eq] at hpre
    exact absurd ((hslash hpre.1).symm.trans hpre.2) (by decide)

theorem commentKind_ne_irregular {content : Text}
    (h : (Directive.decode content).kind = some .codeLines →
      (Directive.decode content).extraIndent = 0) : commentKind content ≠ .irregular := by
  rw [commentKind, if_neg]
  · decide
  · intro hshift
    rw [Bool.and_eq_true, decide_eq_true_eq, decide_eq_true_eq] at hshift
    exact hshift.2 (h hshift.1)

mutual

/-- A regular node has no irregular rows. -/
theorem kind_ne_irregular_of_isRegular (depth : Nat) :
    ∀ node : Node, node.IsRegular → ∀ row ∈ nodeRows layout depth node, row.kind ≠ .irregular
  | .text content, _, row, hrow => by
    rw [nodeRows] at hrow
    exact kind_ne_irregular_of_mem_rowsAs (by decide) (by decide) hrow
  | .comment content, h, row, hrow => by
    rw [nodeRows] at hrow
    rw [Node.IsRegular] at h
    exact kind_ne_irregular_of_mem_rowsAs (commentKind_ne_irregular h) (by decide) hrow
  | .block isOutput code children, h, row, hrow => by
    rw [nodeRows] at hrow
    rw [Node.IsRegular] at h
    split at hrow
    · exact kind_ne_irregular_of_nodesAreRegular depth children h row hrow
    · rcases List.mem_append.1 hrow with hrow | hrow
      · exact Entry.kind_ne_irregular (by decide) hrow
      · exact kind_ne_irregular_of_nodesAreRegular (depth + 1) children h row hrow
  | .element name attributes children, h, row, hrow => by
    rw [Node.IsRegular] at h
    obtain ⟨hnames, hslash, hchildren⟩ := h
    rw [nodeRows] at hrow
    split at hrow
    · exact Entry.kind_ne_irregular (tagKind_ne_irregular hnames) hrow
    · cases hsingle : singleText? children with
      | some content =>
        rw [hsingle] at hrow
        exact kind_ne_irregular_of_mem_rowsAs
          (inlineKind_ne_irregular hnames fun hname => hslash hname content hsingle) (by decide) hrow
      | none =>
        rw [hsingle] at hrow
        rcases List.mem_append.1 hrow with hrow | hrow
        · exact Entry.kind_ne_irregular (tagKind_ne_irregular hnames) hrow
        · exact kind_ne_irregular_of_nodesAreRegular (depth + 1) children hchildren row hrow

/-- Regular nodes side by side have no irregular rows. -/
theorem kind_ne_irregular_of_nodesAreRegular (depth : Nat) :
    ∀ nodes : List Node, nodesAreRegular nodes →
      ∀ row ∈ nodesRows layout depth nodes, row.kind ≠ .irregular
  | [], _, row, hrow => by
    rw [nodesRows] at hrow
    cases hrow
  | node :: nodes, h, row, hrow => by
    rw [nodesAreRegular] at h
    rw [nodesRows] at hrow
    rcases List.mem_append.1 hrow with hrow | hrow
    · exact kind_ne_irregular_of_isRegular depth node h.1 row hrow
    · exact kind_ne_irregular_of_nodesAreRegular depth nodes h.2 row hrow

end

end Writer

/-- A document of regular nodes has no irregular rows. -/
theorem Markup.Document.kind_ne_irregular {layout : Layout} {document : Markup.Document}
    (h : Markup.nodesAreRegular document.nodes) {row : Writer.Row}
    (hrow : row ∈ document.rows layout) : row.kind ≠ .irregular := by
  rcases List.mem_append.1 hrow with hrow | hrow
  · split at hrow
    · exact Writer.Entry.kind_ne_irregular (by decide) hrow
    · cases hrow
  · exact Writer.kind_ne_irregular_of_nodesAreRegular 0 document.nodes h row hrow

end SlimTemplate
