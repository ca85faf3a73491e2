import Mathlib.Data.List.Flatten
import SlimTemplate.Proofs.Writer.Physical

/-!
# Lines of code

A comment that carries code is written as a line of code, and so it comes out wherever it stands
in the tree. The one place where it does not is an element that is written without children: what
such an element holds is left out.

## Main definitions

* `Directive.codeOf?`: the code that a comment carries.
* `Markup.nodesReached`: the comments of nodes that are written.
* `Markup.nodesSpare`: whether the elements that are written without children have none.

## Main statements

* `Markup.nodesReached_eq`: where they have none, all comments are written.
* `Markup.Document.codeLines_sublist`: the code that is written is among the lines, in tree order.
-/

namespace SlimTemplate

/-- The code that a comment carries, if it is written as a line of code. -/
def Directive.codeOf? (content : Text) : Option Text :=
  let code := Text.trim (decode content).body
  if (decode content).kind = some .code ∧ code ≠ [] then some code else none

namespace Markup

mutual

/-- The comments of a node that are written, in tree order. -/
def Node.reached : Node → List Text
  | .text _ => []
  | .comment content => [content]
  | .block _ _ children => nodesReached children
  | .element name _ children => if Writer.isVoid name then [] else nodesReached children

/-- The comments of nodes side by side that are written. -/
def nodesReached : List Node → List Text
  | [] => []
  | node :: nodes => node.reached ++ nodesReached nodes

end

mutual

/-- Whether no element of a node has children that are not written. -/
def Node.Spares : Node → Prop
  | .text _ | .comment _ => True
  | .block _ _ children => nodesSpare children
  | .element name _ children => (Writer.isVoid name = true → children = []) ∧ nodesSpare children

/-- Whether no element of nodes side by side has children that are not written. -/
def nodesSpare : List Node → Prop
  | [] => True
  | node :: nodes => node.Spares ∧ nodesSpare nodes

end

theorem nodesSpare_iff {nodes : List Node} : nodesSpare nodes ↔ ∀ node ∈ nodes, node.Spares := by
  induction nodes with
  | nil => simp [nodesSpare]
  | cons node nodes ih => rw [nodesSpare, List.forall_mem_cons, ih]

theorem Node.Spares.children (name : Text) (attributes : List Attribute) (children : List Node)
    (h : (Node.element name attributes children).Spares) : ∀ child ∈ children, child.Spares :=
  nodesSpare_iff.1 h.2

mutual

theorem Node.reached_eq : (node : Node) → node.Spares → node.reached = node.comments
  | .text _, _ => rfl
  | .comment _, _ => rfl
  | .block _ _ children, h => nodesReached_eq children h
  | .element name _ children, h => by
    rw [Node.reached, Node.comments]
    split
    · next hvoid =>
      rw [h.1 hvoid]
      rfl
    · exact nodesReached_eq children h.2

/-- Where only elements that are written with their children have some, all comments are
written. -/
theorem nodesReached_eq :
    (nodes : List Node) → nodesSpare nodes → nodesReached nodes = nodesComments nodes
  | [], _ => rfl
  | node :: nodes, h => by
    rw [nodesReached, nodesComments, Node.reached_eq node h.1, nodesReached_eq nodes h.2]

end

end Markup

namespace Writer

open Markup

/-- A comment that carries code is written as that line of code. -/
theorem commentEntries_of_codeOf? {content code : Text}
    (h : Directive.codeOf? content = some code) (depth : Nat) :
    ∃ deeper, commentEntries depth content = [⟨deeper, codeLine code⟩] := by
  simp only [Directive.codeOf?, Option.ite_none_right_eq_some] at h
  obtain ⟨⟨hkind, hne⟩, hcode⟩ := h
  obtain rfl := Option.some.inj hcode
  refine ⟨depth + (Directive.decode content).extraIndent, ?_⟩
  simp only [commentEntries, hkind]
  rw [if_neg (by rwa [List.isEmpty_iff])]

mutual

/-- The code that a node carries is written in tree order, whatever stands between. -/
theorem nodeEntries_codeLines (depth : Nat) :
    (node : Node) → ((node.reached.filterMap Directive.codeOf?).map codeLine).Sublist
      ((nodeEntries depth node).map Entry.text)
  | .text _ => List.nil_sublist _
  | .comment content => by
    rw [nodeEntries, Node.reached]
    cases hcode : Directive.codeOf? content with
    | none =>
      rw [List.filterMap_cons_none hcode]
      exact List.nil_sublist _
    | some code =>
      obtain ⟨deeper, hentries⟩ := commentEntries_of_codeOf? hcode depth
      rw [List.filterMap_cons_some hcode, hentries]
      exact .refl _
  | .block isOutput code children => by
    rw [nodeEntries, Node.reached]
    split
    · exact nodesEntries_codeLines depth children
    · exact (nodesEntries_codeLines (depth + 1) children).cons _
  | .element name attributes children => by
    simp only [nodeEntries, Node.reached]
    cases hvoid : isVoid name with
    | true =>
      rw [if_pos rfl]
      exact List.nil_sublist _
    | false =>
      rw [if_neg Bool.false_ne_true, Bool.false_or]
      split
      · next hnil =>
        rw [List.isEmpty_iff.1 hnil]
        exact List.nil_sublist _
      · cases hsingle : singleText? children with
        | none => exact (nodesEntries_codeLines (depth + 1) children).cons _
        | some content =>
          -- An only child that is text carries no code.
          unfold singleText? at hsingle
          split at hsingle
          · exact List.nil_sublist _
          · cases hsingle

/-- The code that nodes carry is written in tree order, whatever stands between. -/
theorem nodesEntries_codeLines (depth : Nat) :
    (nodes : List Node) → (((nodesReached nodes).filterMap Directive.codeOf?).map codeLine).Sublist
      ((nodesEntries depth nodes).map Entry.text)
  | [] => .refl _
  | node :: nodes => by
    rw [nodesEntries, nodesReached, List.filterMap_append, List.map_append, List.map_append]
    exact (nodeEntries_codeLines depth node).append (nodesEntries_codeLines depth nodes)

end

/-- A line that is made of its indentation and a line of code. -/
theorem trimStart_line (layout : Layout) {entry : Entry} {code : Text}
    (htext : entry.text = codeLine code) (hreturn : '\r' ∉ code) :
    Text.trimStart (Text.dropFinalReturn (entry.line layout)) = codeLine code := by
  have hline : '\r' ∉ entry.line layout := by
    rw [Entry.line, htext, codeLine_eq_cons]
    intro hmem
    rcases List.mem_append.1 hmem with hmem | hmem
    · exact absurd (List.eq_of_mem_replicate hmem) (by decide)
    · simp [hreturn] at hmem
  rw [Text.dropFinalReturn_of_not_mem hline, Entry.line, htext, codeLine_eq_cons, Layout.indent,
    Text.trimStart_append_of_isBlank fun c hc => Text.isBlank_of_mem_spaces hc,
    Text.trimStart_cons_of_not_isBlank (by decide)]

/-- Lines of code among entries are among the physical lines. -/
theorem codeLines_sublist_lines (layout : Layout) {entries : List Entry} {codes : List Text}
    (hcodes : ∀ code ∈ codes, '\n' ∉ code ∧ '\r' ∉ code)
    (h : (codes.map codeLine).Sublist (entries.map Entry.text)) :
    (codes.map codeLine).Sublist
      ((Text.lines (Text.unlines (entries.map (Entry.line layout)) ++ ['\n'])).map
        Text.trimStart) := by
  by_cases hne : entries = []
  · subst hne
    rw [List.sublist_nil.1 h]
    exact List.nil_sublist _
  obtain ⟨kept, hkept, htexts⟩ := List.sublist_map_iff.1 h
  rw [lines_unlines_entries layout hne, List.map_map]
  have hphysical : (physicalLines layout kept).Sublist (physicalLines layout entries) :=
    hkept.flatMap _
  have hlines : codes.map codeLine =
      (physicalLines layout kept).map (Text.trimStart ∘ Text.dropFinalReturn) := by
    clear h hkept hphysical hne
    induction kept generalizing codes with
    | nil => exact htexts
    | cons entry kept ih =>
      cases codes with
      | nil => cases htexts
      | cons code codes =>
        obtain ⟨hcode, hmore⟩ := List.forall_mem_cons.1 hcodes
        rw [List.map_cons, List.map_cons, List.cons.injEq] at htexts
        have hline : '\n' ∉ entry.line layout := by
          rw [lineFeed_mem_line_iff, ← htexts.1, codeLine_eq_cons]
          simp [hcode.1]
        rw [physicalLines, List.flatMap_cons, Text.splitOn_of_not_mem hline, List.map_append,
          List.map_singleton, List.map_cons, Function.comp_apply,
          trimStart_line layout htexts.1.symm hcode.2]
        exact congrArg (_ :: ·) (ih hmore htexts.2)
  rw [hlines]
  exact hphysical.map _

end Writer

namespace Markup.Document

open Writer

/-- The code that is written is among the lines of the document, in tree order. -/
theorem codeLines_sublist (layout : Layout) (document : Document)
    (h : ∀ code ∈ (nodesReached document.nodes).filterMap Directive.codeOf?,
      '\n' ∉ code ∧ '\r' ∉ code) :
    (((nodesReached document.nodes).filterMap Directive.codeOf?).map codeLine).Sublist
      ((Text.lines (document.toSlim layout)).map Text.trimStart) := by
  refine codeLines_sublist_lines layout h ?_
  rw [entries, List.map_append]
  exact (nodesEntries_codeLines 0 document.nodes).trans (List.sublist_append_right _ _)

end Markup.Document

end SlimTemplate
