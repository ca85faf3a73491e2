import SlimTemplate.Proofs.Line.Tree
import SlimTemplate.Proofs.Writer.Owner

/-!
# Where the lines of a node stand

The lines of each node are a run of neighbours among the lines of a document. The lines are cut
at the run: into what stands before it, the run, and what stands after it. The innermost node that
encloses the run with a line of its own has that line before the cut, with nothing shallower than
the run in between, and what follows the run is not deeper.

The induction follows the path of a node from the top. A cut at a node is refined to a cut at each
of its children.

## Main definitions

* `Writer.IsCut`, `Writer.IsInnerCut`: the lines of a document cut at the run of a node, and at
  those of its children.
* `Writer.Placement`: which of the lines of a node the run holds.

## Main statements

* `Markup.Document.Contains.placement`: the lines of a document can be cut at every node in it.
-/

namespace SlimTemplate

namespace Writer

open Markup

variable {layout : Layout} {document : Document}

/-! ## Lines with owners at their levels -/

theorem depth_le_level_of_mem_nodesOwned (layout : Layout) {path : Path} {index depth : Nat}
    {nodes : List Node} (hfits : nodesFitLines nodes) {x : OwnedEntry}
    (h : x ∈ nodesOwned path index depth nodes) : depth ≤ x.2.level layout := by
  have hmem : x.2 ∈ nodesEntries depth nodes := by
    rw [← nodesOwned_entries path index depth nodes]
    exact List.mem_map_of_mem h
  exact ((nodesEntries_isLaidOut depth nodes hfits).depth_le _ hmem).trans
    (x.2.depth_le_level layout)

theorem Entry.IsLineAt.level_eq {depth : Nat} {entry : Entry} (h : entry.IsLineAt depth)
    (layout : Layout) : entry.level layout = depth := by
  rw [Entry.level_of_head?_ne h.2.2, h.2.1]

theorem level_of_head?_nodesOwned (layout : Layout) {path : Path} {index depth : Nat}
    {nodes : List Node} (hfits : nodesFitLines nodes) {x : OwnedEntry}
    (h : (nodesOwned path index depth nodes).head? = some x) : x.2.level layout = depth := by
  have hhead : (nodesEntries depth nodes).head? = some x.2 := by
    rw [← nodesOwned_entries path index depth nodes, List.head?_map, h]
    rfl
  exact ((nodesEntries_isLaidOut depth nodes hfits).first _ hhead).level_eq layout

/-! ## Cutting at a node -/

/-- The lines of a document cut at those that belong to the node at a path, or to nodes in it.
The innermost node around with a line of its own stands before, and everything between its first
line and the cut is as deep as the cut; what follows is not deeper. -/
structure IsCut (layout : Layout) (document : Document) (path : Path) (around : List Path)
    (before run after : List OwnedEntry) : Prop where
  owned_eq : document.owned = before ++ run ++ after
  /-- The run belongs to the node. -/
  inside : ∀ x ∈ run, path <+: x.1
  outside : ∀ x ∈ before ++ after, ¬path <+: x.1
  /-- The first line of the innermost node around is the nearest shallower one. -/
  enclosed : ∀ q rest, around = q :: rest → ∃ front line back,
    before = front ++ (q, line) :: back ∧ (∀ x ∈ front, ¬q <+: x.1) ∧
      line.level layout < around.length ∧ ∀ x ∈ back, around.length ≤ x.2.level layout
  next : ∀ x, after.head? = some x → x.2.level layout ≤ around.length

theorem eq_of_append_singleton_isPrefix {path owner : Path} {i j : Nat}
    (hi : path ++ [i] <+: owner) (hj : path ++ [j] <+: owner) : i = j := by
  have heq : path ++ [i] = path ++ [j] := by
    rcases List.prefix_or_prefix_of_prefix hi hj with h | h
    · exact h.eq_of_length (by simp)
    · exact (h.eq_of_length (by simp)).symm
  simpa using heq

theorem not_append_singleton_isPrefix (path : Path) (i : Nat) : ¬path ++ [i] <+: path := by
  intro h
  have hlength := h.length_le
  rw [List.length_append, List.length_singleton] at hlength
  omega

/-- The lines of a document cut at those of the children of the node at a path, as they are cut
at a node. -/
structure IsInnerCut (layout : Layout) (document : Document) (path : Path) (around : List Path)
    (before run after : List OwnedEntry) : Prop where
  owned_eq : document.owned = before ++ run ++ after
  /-- No other line belongs to a child. -/
  outside : ∀ x ∈ before ++ after, ∀ i, ¬path ++ [i] <+: x.1
  /-- The first line of the innermost node around is the nearest shallower one. -/
  enclosed : ∀ q rest, around = q :: rest → ∃ front line back,
    before = front ++ (q, line) :: back ∧ (∀ x ∈ front, ¬q <+: x.1) ∧
      line.level layout < around.length ∧ ∀ x ∈ back, around.length ≤ x.2.level layout
  next : ∀ x, after.head? = some x → x.2.level layout ≤ around.length

/-- The children of a node stand under its line. -/
theorem IsCut.inner_of_cons {path : Path} {around : List Path}
    {before run after : List OwnedEntry} {line : Entry}
    (hcut : IsCut layout document path around before ((path, line) :: run) after)
    (hline : line.level layout = around.length) :
    IsInnerCut layout document path (path :: around) (before ++ [(path, line)]) run after := by
  refine ⟨?_, ?_, ?_, ?_⟩
  · rw [hcut.owned_eq]
    simp
  · intro x hx i hbegins
    simp only [List.append_assoc, List.singleton_append, List.mem_append, List.mem_cons] at hx
    rcases hx with hx | rfl | hx
    · exact hcut.outside x (List.mem_append_left _ hx) ((List.prefix_append path [i]).trans hbegins)
    · exact not_append_singleton_isPrefix path i hbegins
    · exact hcut.outside x (List.mem_append_right _ hx) ((List.prefix_append path [i]).trans hbegins)
  · intro q rest heq
    obtain ⟨rfl, rfl⟩ := List.cons.inj heq
    refine ⟨before, line, [], rfl, ?_, ?_, by simp⟩
    · intro x hx
      exact hcut.outside x (List.mem_append_left _ hx)
    · rw [hline, List.length_cons]
      exact Nat.lt_succ_self _
  · intro x hx
    exact (hcut.next x hx).trans (Nat.le_succ _)

/-- The children of a node without a line of its own stand where the node does. -/
theorem IsCut.inner {path : Path} {around : List Path} {before run after : List OwnedEntry}
    (hcut : IsCut layout document path around before run after) :
    IsInnerCut layout document path around before run after := by
  refine ⟨hcut.owned_eq, ?_, hcut.enclosed, hcut.next⟩
  intro x hx i hbegins
  exact hcut.outside x hx ((List.prefix_append path [i]).trans hbegins)

/-- Among nodes side by side, the lines can be cut at each. -/
theorem IsInnerCut.sibling {path : Path} {around : List Path} {before after : List OwnedEntry}
    {a b : List Node} {node : Node} (hfits : nodesFitLines (a ++ node :: b))
    (hcut : IsInnerCut layout document path around before
      (nodesOwned path 0 around.length (a ++ node :: b)) after) :
    IsCut layout document (path ++ [a.length]) around
      (before ++ nodesOwned path 0 around.length a)
      (nodeOwned (path ++ [a.length]) around.length node)
      (nodesOwned path (a.length + 1) around.length b ++ after) := by
  rw [nodesFitLines_iff] at hfits
  have hfitsA : nodesFitLines a :=
    nodesFitLines_iff.2 fun n hn => hfits n (List.mem_append_left _ hn)
  have hfitsB : nodesFitLines b :=
    nodesFitLines_iff.2 fun n hn =>
      hfits n (List.mem_append_right _ (List.mem_cons_of_mem _ hn))
  refine ⟨?_, ?_, ?_, ?_, ?_⟩
  · rw [hcut.owned_eq, nodesOwned_append, nodesOwned, Nat.zero_add]
    simp only [List.append_assoc]
  · intro x hx
    exact prefix_of_mem_nodeOwned node hx
  · intro x hx hbegins
    simp only [List.mem_append] at hx
    -- Lines next to the run belong to other children of the same node.
    rcases hx with (hx | hx) | hx | hx
    · exact hcut.outside x (List.mem_append_left _ hx) _ hbegins
    · obtain ⟨i, -, hi, hip⟩ := exists_prefix_of_mem_nodesOwned a hx
      have := eq_of_append_singleton_isPrefix hip hbegins
      omega
    · obtain ⟨i, hi, -, hip⟩ := exists_prefix_of_mem_nodesOwned b hx
      have := eq_of_append_singleton_isPrefix hip hbegins
      omega
    · exact hcut.outside x (List.mem_append_right _ hx) _ hbegins
  · intro q rest haround
    obtain ⟨front, line, back, rfl, hfront, hline, hback⟩ := hcut.enclosed q rest haround
    refine ⟨front, line, back ++ nodesOwned path 0 around.length a, ?_, hfront, hline, ?_⟩
    · simp only [List.append_assoc, List.cons_append]
    · intro x hx
      rcases List.mem_append.1 hx with hx | hx
      · exact hback x hx
      · exact depth_le_level_of_mem_nodesOwned layout hfitsA hx
  · intro x hx
    cases hb : nodesOwned path (a.length + 1) around.length b with
    | nil =>
      rw [hb] at hx
      exact hcut.next x hx
    | cons y more =>
      have hhead : (nodesOwned path (a.length + 1) around.length b).head? = some x := by
        rw [hb] at hx ⊢
        exact hx
      exact (level_of_head?_nodesOwned layout hfitsB hhead).le

/-- Where all lines of the children belong to the first, the lines are cut at it. -/
theorem IsInnerCut.only {path : Path} {around : List Path} {before after : List OwnedEntry}
    {rest : List Entry} (hcut : IsInnerCut layout document path around before
      (ownedBy (path ++ [0]) rest) after) :
    IsCut layout document (path ++ [0]) around before (ownedBy (path ++ [0]) rest) after := by
  refine ⟨hcut.owned_eq, ?_, ?_, hcut.enclosed, hcut.next⟩
  · intro x hx
    exact prefix_of_mem_ownedBy hx
  · intro x hx
    exact hcut.outside x hx 0

/-- What the lines that belong to a node are. -/
inductive Placement (layout : Layout) (document : Document) (path : Path) (around : List Path) :
    Node → Prop
  /-- The node writes all of its lines. -/
  | whole {node : Node} {before after : List OwnedEntry}
    (hcut : IsCut layout document path around before (nodeOwned path around.length node) after) :
    Placement layout document path around node
  /-- The node is the only text in an element, which writes what fits behind its opening. -/
  | onlyText {content : Text} {entries : List Entry} {before after : List OwnedEntry}
    (hline : ∀ entry ∈ entries, entry.IsLineAt around.length)
    (hcut : IsCut layout document path around before (ownedBy path entries) after) :
    Placement layout document path around (.text content)
  /-- The node lies in an element that never has content. -/
  | unwritten {node : Node} (h : ∀ x ∈ document.owned, ¬path <+: x.1) :
    Placement layout document path around node

/-- Cutting at a node of which no line is written, because nothing in the run that it lies in
belongs to it. -/
theorem IsCut.unwritten {path child : Path} {around : List Path} {before run after : List OwnedEntry}
    (hcut : IsCut layout document path around before run after) (hchild : path <+: child)
    (hrun : ∀ x ∈ run, ¬child <+: x.1) : ∀ x ∈ document.owned, ¬child <+: x.1 := by
  intro x hx hbegins
  rw [hcut.owned_eq, List.append_assoc, List.mem_append, List.mem_append] at hx
  rcases hx with hx | hx | hx
  · exact hcut.outside x (List.mem_append_left _ hx) (hchild.trans hbegins)
  · exact hrun x hx hbegins
  · exact hcut.outside x (List.mem_append_right _ hx) (hchild.trans hbegins)

theorem singleText?_eq_some {nodes : List Node} {content : Text}
    (h : singleText? nodes = some content) : nodes = [.text content] := by
  unfold singleText? at h
  split at h
  · obtain rfl := Option.some.inj h
    rfl
  · simp at h

theorem inlineOwned_eq_cons (path : Path) (depth : Nat) {e : Element} (h : e.FitsLine)
    (content : Text) :
    ∃ head rest, inlineOwned path depth e content = (path, head) :: ownedBy (path ++ [0]) rest ∧
      head.IsLineAt depth ∧ ∀ entry ∈ rest, entry.IsLineAt (depth + 1) := by
  obtain ⟨head, rest, heq, hhead, hrest⟩ := inlineEntries_eq_cons depth h content
  exact ⟨head, rest, by simp only [inlineOwned, heq], hhead, hrest⟩

/-- The lines of a child of an element. -/
theorem IsCut.placement_of_element {path : Path} {around : List Path}
    {before after : List OwnedEntry} {name : Text} {attributes : List Attribute} {a b : List Node}
    {node : Node} (helement : Element.FitsLine ⟨name, attributes⟩)
    (hfits : nodesFitLines (a ++ node :: b))
    (hcut : IsCut layout document path around before
      (nodeOwned path around.length (.element name attributes (a ++ node :: b))) after) :
    Placement layout document (path ++ [a.length]) (path :: around) node := by
  have hchild : path <+: path ++ [a.length] := List.prefix_append _ _
  have hopening : (Entry.mk around.length (Element.opening ⟨name, attributes⟩)).IsLineAt
      around.length := by
    simpa using opening_isLineAt around.length helement (List.not_mem_nil (a := '\n'))
  simp only [nodeOwned] at hcut
  split at hcut
  · refine .unwritten (hcut.unwritten hchild ?_)
    intro x hx
    obtain rfl := List.mem_singleton.1 hx
    exact not_append_singleton_isPrefix path a.length
  · split at hcut
    · next content heq =>
      -- The only child is the text itself.
      have hnodes := singleText?_eq_some heq
      obtain ⟨rfl, rfl, rfl⟩ : a = [] ∧ node = .text content ∧ b = [] := by
        cases a with
        | nil => simpa using hnodes
        | cons n a => simp at hnodes
      obtain ⟨head, rest, hinline, hhead, hrest⟩ :=
        inlineOwned_eq_cons path around.length helement content
      rw [hinline] at hcut
      exact .onlyText hrest (hcut.inner_of_cons (hhead.level_eq layout)).only
    · exact .whole ((hcut.inner_of_cons (hopening.level_eq layout)).sibling hfits)

/-- The lines of a child of a block. -/
theorem IsCut.placement_of_block {path : Path} {around : List Path}
    {before after : List OwnedEntry} {isOutput : Bool} {code : Text} {a b : List Node}
    {node : Node} (hcode : '\n' ∉ code) (hfits : nodesFitLines (a ++ node :: b))
    (hcut : IsCut layout document path around before
      (nodeOwned path around.length (.block isOutput code (a ++ node :: b))) after) :
    Placement layout document (path ++ [a.length])
      (if (Node.block isOutput code (a ++ node :: b)).isEnclosing then path :: around else around)
      node := by
  rw [nodeOwned] at hcut
  by_cases hempty : code.isEmpty = true
  · -- The block has no line, so its children stand where it does.
    rw [if_pos hempty] at hcut
    have henclosing : (Node.block isOutput code (a ++ node :: b)).isEnclosing = false := by
      simp [Node.isEnclosing, hempty]
    rw [henclosing, if_neg Bool.false_ne_true]
    exact .whole (hcut.inner.sibling hfits)
  · rw [if_neg hempty] at hcut
    have henclosing : (Node.block isOutput code (a ++ node :: b)).isEnclosing = true := by
      simp [Node.isEnclosing, hempty]
    rw [if_pos henclosing]
    have hline := blockLine_isLineAt around.length isOutput hcode
    exact .whole ((hcut.inner_of_cons (hline.level_eq layout)).sibling hfits)

/-- The lines of a node at top level. -/
theorem isCut_top {a b : List Node} {node : Node} (hfits : nodesFitLines (a ++ node :: b))
    (hnodes : document.nodes = a ++ node :: b) :
    IsCut layout document [a.length] [] (document.doctypeOwned ++ nodesOwned [] 0 0 a)
      (nodeOwned [a.length] 0 node) (nodesOwned [] (a.length + 1) 0 b ++ []) := by
  have hinner : IsInnerCut layout document [] [] document.doctypeOwned
      (nodesOwned [] 0 0 (a ++ node :: b)) [] := by
    refine ⟨?_, ?_, ?_, ?_⟩
    · rw [Document.owned, hnodes, List.append_nil]
    · intro x hx i hbegins
      rw [List.append_nil] at hx
      rw [Document.owner_of_mem_doctypeOwned hx] at hbegins
      simp at hbegins
    · intro q rest heq
      simp at heq
    · intro x hx
      simp at hx
  exact hinner.sibling hfits

end Writer

namespace Markup.Document

open Writer

variable {layout : Layout} {document : Document}

/-- Where the lines of a node stand among those of a document. -/
theorem Contains.placement (layout : Layout) (hfits : document.FitsLines) {path : Path}
    {around : List Path} {node : Node} (h : document.Contains path around node) :
    Placement layout document path around node := by
  induction h with
  | @top index node h =>
    obtain ⟨a, b, hnodes, rfl⟩ := exists_append_of_getElem? h
    exact .whole (isCut_top (hnodes ▸ hfits) hnodes)
  | @child path around parent node index hparent h ih =>
    have hparentFits := hparent.fitsLines hfits
    obtain ⟨a, b, hchildren, rfl⟩ := exists_append_of_getElem? h
    cases ih with
    | unwritten hnone =>
      refine .unwritten ?_
      intro x hx hbegins
      exact hnone x hx ((List.prefix_append path _).trans hbegins)
    | onlyText hline hcut => simp [Node.children] at hchildren
    | whole hcut =>
      cases parent with
      | text content => simp [Node.children] at hchildren
      | comment content => simp [Node.children] at hchildren
      | block isOutput code children =>
        rw [Node.children] at hchildren
        subst hchildren
        exact hcut.placement_of_block hparentFits.1 hparentFits.2
      | element name attributes children =>
        rw [Node.children] at hchildren
        subst hchildren
        exact hcut.placement_of_element hparentFits.1 hparentFits.2

end Markup.Document

end SlimTemplate
