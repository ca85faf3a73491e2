import SlimTemplate.Proofs.Writer.Cut

/-!
# A written document read back

The lines that are read back from a written document form the tree of its nodes. The lines of
each node are a run of neighbours. The first line of a run stands as deep as the node is enclosed,
below the first line of the innermost node that encloses it with a line of its own; and the block
of the first line of an element, of a block with code or of a comment is the run.

## Main definitions

* `Markup.Node.isHeading`: whether all lines of a node but the first stand deeper than the first.
* `Markup.Document.IsRun`: the lines of a node are those between two numbers.

## Main statements

* `Markup.Document.levels_ofSource_toSlim`: lines are read back at the levels they are written at.
* `Markup.Document.ofSource_toSlim_tree`: the tree that is read back.
-/

namespace SlimTemplate

namespace Markup

/-- Whether all lines of a node but the first stand deeper than the first. -/
def Node.isHeading : Node → Bool
  | .element .. => true
  | .block _ code _ => !code.isEmpty
  | .text _ => false
  | .comment _ => true

end Markup

namespace Writer

open Markup

variable {layout : Layout} {document : Document}

theorem nodeEntries_isHeaded (depth : Nat) {node : Node} (hfits : node.FitsLines)
    (h : node.isHeading = true) :
    nodeEntries depth node = [] ∨ IsHeaded depth (nodeEntries depth node) := by
  cases node with
  | text content => simp [Node.isHeading] at h
  | comment content =>
    rw [nodeEntries]
    exact commentEntries_isHeaded depth hfits
  | element name attributes children =>
    right
    exact elementEntries_isHeaded depth hfits.1 (nodesEntries_isLaidOut _ children hfits.2)
  | block isOutput code children =>
    have hcode : ¬code.isEmpty = true := by
      simpa [Node.isHeading] using h
    right
    rw [nodeEntries, if_neg hcode]
    exact isHeaded_cons (blockLine_isLineAt depth isOutput hfits.1)
      (nodesEntries_isLaidOut _ children hfits.2)

theorem doctypeLine_isLineAt (doctype : Doctype) : (Entry.mk 0 doctype.line).IsLineAt 0 := by
  cases doctype <;> exact isLineAt_cons 0 (by decide) (by decide)

end Writer

namespace Markup.Document

open Writer

variable {layout : Layout} {document : Document}

theorem entries_isLaidOut (hfits : document.FitsLines) : IsLaidOut 0 document.entries := by
  refine IsLaidOut.append ?_ (nodesEntries_isLaidOut 0 document.nodes hfits)
  cases document.doctype with
  | none => exact isLaidOut_nil 0
  | some doctype => exact (isHeaded_singleton (doctypeLine_isLineAt doctype)).isLaidOut

/-- Lines are read back with their texts and at the levels that they are written at. -/
theorem lines_ofSource_toSlim (layout : Layout) (hfits : document.FitsLines) :
    (LineTree.ofSource layout (document.toSlim layout)).lines.map
        (fun line => (line.content, line.level)) =
      document.owned.map fun x => (Text.trim x.2.text, x.2.level layout) := by
  have h := ofSource_unlines layout (entries_isLaidOut hfits).oneLine
  rw [LineTree.ofSource, Document.toSlim, h, ← document.owned_entries, List.map_map]
  rfl

theorem levels_ofSource_toSlim (layout : Layout) (hfits : document.FitsLines) :
    (LineTree.ofSource layout (document.toSlim layout)).lines.map (·.level) =
      document.owned.map fun x => x.2.level layout := by
  have h := congrArg (List.map Prod.snd) (lines_ofSource_toSlim layout hfits)
  rwa [List.map_map, List.map_map] at h

/-- The lines of the node at a path are those from `start` up to `stop`. -/
def IsRun (document : Document) (path : Path) (start stop : Nat) : Prop :=
  ∀ i, (∃ owner, document.owners[i]? = some owner ∧ path <+: owner) ↔ start ≤ i ∧ i < stop

/-- What is read back at a run of lines: the level of its first line, the parent of that line,
and for a node that heads its lines where the block of that line ends. -/
structure IsReadBack (tree : LineTree) (document : Document) (around : List Path) (node : Node)
    (start stop : Nat) : Prop where
  /-- The first line is as deep as the node is enclosed. -/
  level_eq : tree.lines[start]?.map (·.level) = some around.length
  /-- At top level it has no parent. -/
  parent?_of_nil : around = [] → tree.parent? start = none
  /-- Else its parent is the first line of the innermost node around. -/
  parent?_of_cons : ∀ q rest, around = q :: rest →
    ∃ first, document.firstLine? q = some first ∧ tree.parent? start = some first
  /-- The block of the first line is the run. -/
  blockEnd_eq : node.isHeading = true → tree.blockEnd start = stop

end Markup.Document

namespace Writer

open Markup

variable {layout : Layout} {document : Document}

/-- A run holds the lines at its place, and no other line belongs to the node. -/
theorem IsCut.isRun {path : Path} {around : List Path} {before run after : List OwnedEntry}
    (hcut : IsCut layout document path around before run after) :
    document.IsRun path before.length (before.length + run.length) := by
  intro i
  rw [Document.owners, hcut.owned_eq, List.getElem?_map]
  constructor
  · rintro ⟨owner, hi, hbegins⟩
    obtain ⟨x, hx, rfl⟩ := Option.map_eq_some_iff.1 hi
    by_contra hout
    refine hcut.outside x ?_ hbegins
    by_cases hlow : i < before.length
    · rw [List.append_assoc, List.getElem?_append_left hlow] at hx
      exact List.mem_append_left _ (List.mem_of_getElem? hx)
    · have hhigh : (before ++ run).length ≤ i := by
        rw [List.length_append]
        omega
      rw [List.getElem?_append_right hhigh] at hx
      exact List.mem_append_right _ (List.mem_of_getElem? hx)
  · rintro ⟨hlow, hhigh⟩
    have hlength : i - before.length < run.length := by omega
    refine ⟨run[i - before.length].1, ?_, hcut.inside _ (List.getElem_mem hlength)⟩
    rw [List.append_assoc, List.getElem?_append_right hlow, List.getElem?_append_left hlength,
      List.getElem?_eq_getElem hlength, Option.map_some]

/-- The first line of the innermost node around stands before the cut. -/
theorem IsCut.firstLine?_eq {path q : Path} {around rest : List Path}
    {before run after : List OwnedEntry} (hcut : IsCut layout document path around before run after)
    (haround : around = q :: rest) : ∃ front line back,
      before = front ++ (q, line) :: back ∧ document.firstLine? q = some front.length ∧
        line.level layout < around.length ∧ ∀ x ∈ back, around.length ≤ x.2.level layout := by
  obtain ⟨front, line, back, rfl, hfront, hline, hback⟩ := hcut.enclosed q rest haround
  refine ⟨front, line, back, rfl, ?_, hline, hback⟩
  have hnone : (front.map (·.1)).findIdx? (fun owner => q.isPrefixOf owner) = none := by
    rw [List.findIdx?_eq_none_iff]
    intro owner howner
    obtain ⟨x, hx, rfl⟩ := List.mem_map.1 howner
    rw [← Bool.not_eq_true, List.isPrefixOf_iff_prefix]
    exact hfront x hx
  have hself : q.isPrefixOf q = true := by
    simp
  rw [Document.firstLine?, Document.owners, hcut.owned_eq]
  simp only [List.append_assoc, List.cons_append, List.map_append, List.map_cons,
    List.findIdx?_append, hnone, List.findIdx?_cons, hself, if_true]
  simp

/-- What the first line of a run is read back as. -/
theorem IsCut.isReadBack {path : Path} {around : List Path} {node : Node}
    {before rest after : List OwnedEntry} {head : OwnedEntry} (hfits : document.FitsLines)
    (hcut : IsCut layout document path around before (head :: rest) after)
    (hhead : head.2.level layout = around.length)
    (hrest : node.isHeading = true → ∀ x ∈ rest, around.length < x.2.level layout) :
    Document.IsReadBack (LineTree.ofSource layout (document.toSlim layout)) document around node
      before.length (before.length + (head :: rest).length) := by
  have hlevels := Document.levels_ofSource_toSlim layout hfits
  rw [hcut.owned_eq, List.append_assoc, List.cons_append, List.map_append, List.map_cons, hhead]
    at hlevels
  refine ⟨?_, ?_, ?_, ?_⟩
  · rw [← List.getElem?_map, hlevels]
    simp
  · intro haround
    have hparent := LineTree.parent?_eq_none hlevels (by simp [haround])
    rwa [List.length_map] at hparent
  · intro q more haround
    obtain ⟨front, line, back, rfl, hfirst, hline, hback⟩ := hcut.firstLine?_eq haround
    refine ⟨front.length, hfirst, ?_⟩
    rw [List.map_append, List.map_cons] at hlevels
    have hparent := LineTree.parent?_eq_some hlevels hline (List.forall_mem_map.2 hback)
    simpa [Nat.add_assoc, Nat.add_comm 1] using hparent
  · intro hheading
    have hend := LineTree.blockEnd_eq (b := rest.map fun x => x.2.level layout)
      (c := after.map fun x => x.2.level layout) (by rw [hlevels, List.map_append])
      (List.forall_mem_map.2 (hrest hheading)) ?_
    · simpa [Nat.add_assoc, Nat.add_comm 1] using hend
    · intro l hl
      rw [List.head?_map, Option.map_eq_some_iff] at hl
      obtain ⟨x, hx, rfl⟩ := hl
      exact hcut.next x hx

/-- The lines that a node writes, when the document is cut at them. -/
theorem IsCut.isReadBack_of_node {path : Path} {around : List Path} {node : Node}
    {before after : List OwnedEntry} (hdocument : document.FitsLines) (hfits : node.FitsLines)
    (hcut : IsCut layout document path around before (nodeOwned path around.length node) after)
    (hne : nodeOwned path around.length node ≠ []) :
    Document.IsReadBack (LineTree.ofSource layout (document.toSlim layout)) document around node
      before.length (before.length + (nodeOwned path around.length node).length) := by
  have hentries := nodeOwned_entries path around.length node
  have hlaid := nodeEntries_isLaidOut around.length node hfits
  cases hrun : nodeOwned path around.length node with
  | nil => exact absurd hrun hne
  | cons head rest =>
    rw [hrun, List.map_cons] at hentries
    rw [hrun] at hcut
    have hhead : head.2.IsLineAt around.length := by
      refine hlaid.first _ ?_
      rw [← hentries, List.head?_cons]
    refine hcut.isReadBack hdocument (hhead.level_eq layout) ?_
    intro hheading x hx
    rcases nodeEntries_isHeaded around.length hfits hheading with hnil | hheaded
    · rw [hnil] at hentries
      simp at hentries
    · obtain ⟨first, others, heq, -, hothers⟩ := hheaded
      rw [heq] at hentries
      obtain ⟨-, rfl⟩ := List.cons.inj hentries
      exact (hothers _ (List.mem_map_of_mem hx)).2.trans_le (x.2.depth_le_level layout)

/-- The lines of a node, wherever it lies. -/
theorem Placement.exists_isRun {path : Path} {around : List Path} {node : Node}
    (hdocument : document.FitsLines) (hfits : node.FitsLines)
    (h : Placement layout document path around node) :
    ∃ start stop, document.IsRun path start stop ∧
      (start < stop → Document.IsReadBack (LineTree.ofSource layout (document.toSlim layout))
        document around node start stop) := by
  cases h with
  | unwritten hnone =>
    refine ⟨0, 0, ?_, fun h => absurd h (lt_irrefl 0)⟩
    intro i
    constructor
    · rintro ⟨owner, hi, hbegins⟩
      obtain ⟨x, hx, rfl⟩ := List.mem_map.1 (List.mem_of_getElem? hi)
      exact absurd hbegins (hnone x hx)
    · rintro ⟨-, hi⟩
      omega
  | whole hcut =>
    refine ⟨_, _, hcut.isRun, fun hlt => hcut.isReadBack_of_node hdocument hfits ?_⟩
    intro hnil
    rw [hnil, List.length_nil] at hlt
    omega
  | @onlyText content entries before after hline hcut =>
    refine ⟨_, _, hcut.isRun, fun hlt => ?_⟩
    cases entries with
    | nil => exact absurd hlt (lt_irrefl _)
    | cons head rest =>
      refine hcut.isReadBack hdocument ((hline head List.mem_cons_self).level_eq layout) ?_
      intro hheading
      simp [Node.isHeading] at hheading

end Writer

namespace Markup.Document

open Writer

/-- A written document is read back as the tree of its nodes: line by line, with the lines of each
node a run that starts where the node is enclosed and whose first line heads it. -/
theorem ofSource_toSlim_tree (layout : Layout) (document : Document)
    (hfits : document.FitsLines) :
    let tree := LineTree.ofSource layout (document.toSlim layout)
    tree.lines.map (·.content) = document.owned.map (fun x => Text.trim x.2.text) ∧
      ∀ path around node, document.Contains path around node →
        ∃ start stop, document.IsRun path start stop ∧
          (start < stop → IsReadBack tree document around node start stop) := by
  intro tree
  constructor
  · have h := congrArg (List.map Prod.fst) (lines_ofSource_toSlim layout hfits)
    rwa [List.map_map, List.map_map] at h
  · intro path around node hnode
    exact (hnode.placement layout hfits).exists_isRun hfits (hnode.fitsLines hfits)

/-- A condition in an element, with code and text under it. -/
def nested : Document where
  doctype := some .html
  nodes :=
    [.element "div".toList [("class".toList, "a".toList)]
      [.element "p".toList [] [.text "x\ny".toList],
        .block false "if ok".toList [.comment "SLIM_CODE: go".toList, .text "z".toList]],
      .comment "a\nb".toList]

theorem not_endsInIndent_of_not_mem {content : Text} (h : 'N' ∉ Text.trim content) :
    ¬Directive.EndsInIndent content := by
  rintro ⟨before, digits, heq, -, -⟩
  have hlabel : 'N' ∈ Directive.indentLabel := by decide
  refine h ?_
  rw [heq]
  exact List.mem_append_left _ (List.mem_append_right _ hlabel)

theorem nested_fitsLines : nested.FitsLines := by
  have hcode : Directive.CommentFitsLine "SLIM_CODE: go".toList := by
    refine ⟨not_endsInIndent_of_not_mem (by decide), fun _ _ _ => by decide⟩
  have hcomment : Directive.CommentFitsLine "a\nb".toList := by
    refine ⟨not_endsInIndent_of_not_mem (by decide), fun kind hkind => ?_⟩
    have hnone : (Directive.decode "a\nb".toList).kind = none := by decide
    rw [hnone] at hkind
    simp at hkind
  have hdiv : Element.FitsLine ⟨"div".toList, [("class".toList, "a".toList)]⟩ := by
    refine ⟨⟨'d', "iv".toList, by decide, by decide⟩,
      Text.isBlank_eq_false_of_all (by decide), ?_⟩
    intro key value h
    simp only [List.mem_singleton, Prod.mk.injEq] at h
    obtain ⟨rfl, rfl⟩ := h
    exact ⟨by decide, by decide⟩
  have hp : Element.FitsLine ⟨"p".toList, []⟩ :=
    ⟨⟨'p', [], by decide, by decide⟩, Text.isBlank_eq_false_of_all (by decide), by simp⟩
  simp only [FitsLines, nested, nodesFitLines, Node.FitsLines, and_true]
  exact ⟨⟨hdiv, hp, by decide, hcode⟩, hcomment⟩

/-- The lines of the condition start under the element. -/
theorem ofSource_toSlim_tree_nested :
    nested.FitsLines ∧ ∃ start stop, nested.IsRun [0, 1] start stop ∧
      IsReadBack (LineTree.ofSource Layout.standard (nested.toSlim Layout.standard)) nested [[0]]
        (.block false "if ok".toList [.comment "SLIM_CODE: go".toList, .text "z".toList])
        start stop := by
  refine ⟨nested_fitsLines, ?_⟩
  have htop : nested.Contains [0] [] (.element "div".toList [("class".toList, "a".toList)]
      [.element "p".toList [] [.text "x\ny".toList],
        .block false "if ok".toList [.comment "SLIM_CODE: go".toList, .text "z".toList]]) :=
    .top rfl
  have hnode : nested.Contains [0, 1] [[0]]
      (.block false "if ok".toList [.comment "SLIM_CODE: go".toList, .text "z".toList]) :=
    htop.child rfl
  obtain ⟨start, stop, hrun, hback⟩ :=
    (ofSource_toSlim_tree Layout.standard nested nested_fitsLines).2 _ _ _ hnode
  have hline := (hrun 5).1 ⟨[0, 1], by decide, List.prefix_rfl⟩
  exact ⟨start, stop, hrun, hback (by omega)⟩

end Markup.Document

end SlimTemplate
