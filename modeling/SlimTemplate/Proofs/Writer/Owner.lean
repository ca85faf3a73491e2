import SlimTemplate.Proofs.Writer.Nodes

/-!
# Which node writes a line

A node of a document is found by a path: its number among the nodes at top level, then its number
among the children of that node, and so on. Each line that is written belongs to one node. The
line of an element with text behind it belongs to the element; lines of the text alone belong to
the text.

## Main definitions

* `Writer.nodeOwned`: the lines of a node, each with the path of the node that it belongs to.
* `Markup.Document.owned`: the lines of a document with their owners.
* `Markup.Document.Contains`: a node in a document and the nodes that enclose it with a line of
  their own.

## Main statements

* `Markup.Document.owned_entries`: without the owners, these are the lines of the document.
* `Writer.prefix_of_mem_nodeOwned`: the lines of a node belong to it or to nodes in it.
-/

namespace SlimTemplate

namespace Markup

/-- Where a node stands in a document. -/
abbrev Path := List Nat

/-- The nodes that a node encloses. -/
def Node.children : Node → List Node
  | .element _ _ children => children
  | .block _ _ children => children
  | .text _ => []
  | .comment _ => []

/-- Whether a node has a line of its own above the lines of what it encloses. -/
def Node.isEnclosing : Node → Bool
  | .element .. => true
  | .block _ code _ => !code.isEmpty
  | .text _ => false
  | .comment _ => false

end Markup

namespace Writer

open Markup

/-- A line and the node that it belongs to. -/
abbrev OwnedEntry := Path × Entry

/-- Lines that belong to one node. -/
def ownedBy (path : Path) (entries : List Entry) : List OwnedEntry :=
  entries.map fun entry => (path, entry)

/-- The lines of an element whose only child is text: the first belongs to the element, the
others to the text. -/
def inlineOwned (path : Path) (depth : Nat) (e : Element) (content : Text) : List OwnedEntry :=
  match inlineEntries depth e content with
  | [] => []
  | head :: rest => (path, head) :: ownedBy (path ++ [0]) rest

mutual

/-- The lines of the node at a path, each with the node that it belongs to. -/
def nodeOwned (path : Path) (depth : Nat) : Node → List OwnedEntry
  | .text content => ownedBy path (textEntries depth content)
  | .comment content => ownedBy path (commentEntries depth content)
  | .block isOutput code children =>
    if code.isEmpty then nodesOwned path 0 depth children
    else (path, ⟨depth, blockLine isOutput code⟩) :: nodesOwned path 0 (depth + 1) children
  | .element name attributes children =>
    let e : Element := ⟨name, attributes⟩
    if isVoid name || children.isEmpty then [(path, ⟨depth, e.opening⟩)]
    else
      match singleText? children with
      | some content => inlineOwned path depth e content
      | none => (path, ⟨depth, e.opening⟩) :: nodesOwned path 0 (depth + 1) children

/-- The lines of nodes side by side, numbered from `index` on under a path. -/
def nodesOwned (path : Path) (index depth : Nat) : List Node → List OwnedEntry
  | [] => []
  | node :: nodes =>
    nodeOwned (path ++ [index]) depth node ++ nodesOwned path (index + 1) depth nodes

end

theorem map_snd_ownedBy (path : Path) (entries : List Entry) :
    (ownedBy path entries).map (·.2) = entries := by
  rw [ownedBy, List.map_map]
  exact List.map_id entries

theorem prefix_of_mem_ownedBy {path : Path} {entries : List Entry} {x : OwnedEntry}
    (h : x ∈ ownedBy path entries) : path <+: x.1 := by
  obtain ⟨entry, -, rfl⟩ := List.mem_map.1 h
  exact List.prefix_rfl

theorem map_snd_inlineOwned (path : Path) (depth : Nat) (e : Element) (content : Text) :
    (inlineOwned path depth e content).map (·.2) = inlineEntries depth e content := by
  rw [inlineOwned]
  split
  · next heq => rw [heq, List.map_nil]
  · next heq => rw [heq, List.map_cons, map_snd_ownedBy]

theorem prefix_of_mem_inlineOwned {path : Path} {depth : Nat} {e : Element} {content : Text}
    {x : OwnedEntry} (h : x ∈ inlineOwned path depth e content) : path <+: x.1 := by
  rw [inlineOwned] at h
  split at h
  · simp at h
  · rcases List.mem_cons.1 h with rfl | h
    · exact List.prefix_rfl
    · exact (List.prefix_append path [0]).trans (prefix_of_mem_ownedBy h)

mutual

/-- Without their owners, these are the lines of the node. -/
theorem nodeOwned_entries (path : Path) (depth : Nat) :
    (node : Node) → (nodeOwned path depth node).map (·.2) = nodeEntries depth node
  | .text content => by rw [nodeOwned, map_snd_ownedBy, nodeEntries]
  | .comment content => by rw [nodeOwned, map_snd_ownedBy, nodeEntries]
  | .block isOutput code children => by
    rw [nodeOwned, nodeEntries]
    split
    · exact nodesOwned_entries path 0 depth children
    · rw [List.map_cons, nodesOwned_entries path 0 (depth + 1) children]
  | .element name attributes children => by
    simp only [nodeOwned, nodeEntries]
    split
    · rfl
    · cases singleText? children with
      | some content => exact map_snd_inlineOwned path depth ⟨name, attributes⟩ content
      | none => simp only [List.map_cons, nodesOwned_entries path 0 (depth + 1) children]

/-- Without their owners, these are the lines of the nodes. -/
theorem nodesOwned_entries (path : Path) (index depth : Nat) :
    (nodes : List Node) → (nodesOwned path index depth nodes).map (·.2) = nodesEntries depth nodes
  | [] => rfl
  | node :: nodes => by
    rw [nodesOwned, nodesEntries, List.map_append, nodeOwned_entries _ depth node,
      nodesOwned_entries path (index + 1) depth nodes]

end

mutual

/-- The lines of a node belong to it or to nodes in it. -/
theorem prefix_of_mem_nodeOwned {path : Path} {depth : Nat} {x : OwnedEntry} :
    (node : Node) → x ∈ nodeOwned path depth node → path <+: x.1
  | .text content, h => by
    rw [nodeOwned] at h
    exact prefix_of_mem_ownedBy h
  | .comment content, h => by
    rw [nodeOwned] at h
    exact prefix_of_mem_ownedBy h
  | .block isOutput code children, h => by
    rw [nodeOwned] at h
    split at h
    · obtain ⟨i, -, -, hi⟩ := exists_prefix_of_mem_nodesOwned children h
      exact (List.prefix_append path [i]).trans hi
    · rcases List.mem_cons.1 h with rfl | h
      · exact List.prefix_rfl
      · obtain ⟨i, -, -, hi⟩ := exists_prefix_of_mem_nodesOwned children h
        exact (List.prefix_append path [i]).trans hi
  | .element name attributes children, h => by
    simp only [nodeOwned] at h
    split at h
    · obtain rfl := List.mem_singleton.1 h
      exact List.prefix_rfl
    · split at h
      · exact prefix_of_mem_inlineOwned h
      · rcases List.mem_cons.1 h with rfl | h
        · exact List.prefix_rfl
        · obtain ⟨i, -, -, hi⟩ := exists_prefix_of_mem_nodesOwned children h
          exact (List.prefix_append path [i]).trans hi

/-- A line of nodes side by side belongs to one of them or to nodes in it. -/
theorem exists_prefix_of_mem_nodesOwned {path : Path} {index depth : Nat} {x : OwnedEntry} :
    (nodes : List Node) → x ∈ nodesOwned path index depth nodes →
      ∃ i, index ≤ i ∧ i < index + nodes.length ∧ path ++ [i] <+: x.1
  | [], h => by simp [nodesOwned] at h
  | node :: nodes, h => by
    rw [nodesOwned, List.mem_append] at h
    rw [List.length_cons]
    rcases h with h | h
    · exact ⟨index, le_rfl, by omega, prefix_of_mem_nodeOwned node h⟩
    · obtain ⟨i, hlow, hhigh, hi⟩ := exists_prefix_of_mem_nodesOwned nodes h
      exact ⟨i, by omega, by omega, hi⟩

end

theorem nodesOwned_append (path : Path) (index depth : Nat) (a b : List Node) :
    nodesOwned path index depth (a ++ b) =
      nodesOwned path index depth a ++ nodesOwned path (index + a.length) depth b := by
  induction a generalizing index with
  | nil => rfl
  | cons node a ih =>
    rw [List.cons_append, nodesOwned, ih, nodesOwned, List.append_assoc, List.length_cons,
      Nat.add_assoc, Nat.add_comm 1]

end Writer

namespace Markup.Document

open Writer

/-- The line of the document type, which belongs to no node. -/
def doctypeOwned (document : Document) : List OwnedEntry :=
  match document.doctype with
  | some doctype => [([], ⟨0, doctype.line⟩)]
  | none => []

/-- The lines of a document with the nodes that they belong to. -/
def owned (document : Document) : List OwnedEntry :=
  document.doctypeOwned ++ nodesOwned [] 0 0 document.nodes

/-- The nodes that the lines of a document belong to. -/
def owners (document : Document) : List Path :=
  document.owned.map (·.1)

/-- Without their owners, these are the lines of the document. -/
theorem owned_entries (document : Document) : document.owned.map (·.2) = document.entries := by
  rw [owned, doctypeOwned, entries, List.map_append, nodesOwned_entries]
  cases document.doctype <;> rfl

theorem owner_of_mem_doctypeOwned {document : Document} {x : OwnedEntry}
    (h : x ∈ document.doctypeOwned) : x.1 = [] := by
  unfold doctypeOwned at h
  split at h
  · obtain rfl := List.mem_singleton.1 h
    rfl
  · simp at h

/-- The first line that belongs to a node or to a node in it. -/
def firstLine? (document : Document) (path : Path) : Option Nat :=
  document.owners.findIdx? fun owner => path.isPrefixOf owner

/-- The node at a path in a document, and the paths of the nodes around it that have a line of
their own, the innermost first. -/
inductive Contains (document : Document) : Path → List Path → Node → Prop
  | top {index : Nat} {node : Node} (h : document.nodes[index]? = some node) :
    Contains document [index] [] node
  | child {path : Path} {around : List Path} {parent node : Node} {index : Nat}
    (hparent : Contains document path around parent) (h : parent.children[index]? = some node) :
    Contains document (path ++ [index]) (if parent.isEnclosing then path :: around else around)
      node

/-- Whether all that a document writes on one line fits on one line. -/
def FitsLines (document : Document) : Prop :=
  nodesFitLines document.nodes

theorem Contains.fitsLines {document : Document} (hfits : document.FitsLines) {path : Path}
    {around : List Path} {node : Node} (h : document.Contains path around node) :
    node.FitsLines := by
  induction h with
  | top h => exact nodesFitLines_iff.1 hfits _ (List.mem_of_getElem? h)
  | @child path around parent node index _ h ih =>
    cases parent with
    | text content => simp [Node.children] at h
    | comment content => simp [Node.children] at h
    | block isOutput code children =>
      exact nodesFitLines_iff.1 ih.2 _ (List.mem_of_getElem? h)
    | element name attributes children =>
      exact nodesFitLines_iff.1 ih.2 _ (List.mem_of_getElem? h)

end Markup.Document

end SlimTemplate
