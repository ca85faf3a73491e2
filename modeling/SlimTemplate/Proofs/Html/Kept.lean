import Mathlib.Data.List.Basic
import SlimTemplate.Markup.Html
import SlimTemplate.Proofs.Html.Links
import SlimTemplate.Proofs.Writer.Shape

/-!
# What is kept of the nodes of a text

Of a whole document the root alone is kept. Of a fragment all is kept, but the root, its head and
its body make room for what stands in them. What holds of all nodes, and of the children of the
nodes of which it holds, thus holds of those that are kept, and a fragment keeps all its comments.

## Main statements

* `Markup.forall_mem_dissolveRoot`: what holds of nodes and of their children is kept.
* `Markup.nodesComments_dissolveRoot`: a fragment keeps its comments and their order.
-/

namespace SlimTemplate

namespace Html.Arena

open Markup (Node)

variable {a : Arena} {p : CellId} {depth : Nat} {node : Node}

/-- The nodes of the children of a cell, each with what stands in it. -/
theorem toNodes_succ (a : Arena) (depth : Nat) (p : CellId) :
    a.toNodes (depth + 1) p = (a.reversedChildren p).reverse.filterMap fun child =>
      match a.content? child with
      | some (.element name attributes _) =>
        some (elementNode name attributes (a.toNodes depth (a.holder child)))
      | some (.text reversed) => some (.text reversed.reverse)
      | some (.comment data) => some (.comment data)
      | _ => none :=
  rfl

/-- A node of the finished tree is that of an element, a piece of text or a comment. -/
theorem mem_toNodes_succ (h : node ∈ a.toNodes (depth + 1) p) :
    (∃ c name attributes contents, a.content? c = some (.element name attributes contents) ∧
      node = elementNode name attributes (a.toNodes depth (a.holder c))) ∨
    ∃ content, node = .text content ∨ node = .comment content := by
  rw [toNodes_succ] at h
  obtain ⟨c, -, hsome⟩ := List.mem_filterMap.1 h
  cases hcontent : a.content? c with
  | none =>
    rw [hcontent] at hsome
    cases hsome
  | some content =>
    rw [hcontent] at hsome
    cases content with
    | root => cases hsome
    | text reversed => exact .inr ⟨_, .inl (Option.some.inj hsome).symm⟩
    | comment data => exact .inr ⟨_, .inr (Option.some.inj hsome).symm⟩
    | element name attributes contents =>
      exact .inl ⟨c, name, attributes, contents, hcontent, (Option.some.inj hsome).symm⟩

end Html.Arena

namespace Markup

variable {nodes children : List Node} {node : Node} {names : List Text}

theorem nodesComments_eq_flatMap (nodes : List Node) :
    nodesComments nodes = nodes.flatMap Node.comments := by
  induction nodes with
  | nil => rfl
  | cons node nodes ih => rw [nodesComments, List.flatMap_cons, ih]

theorem childrenIf?_eq_some (h : childrenIf? names node = some children) :
    ∃ name attributes, node = .element name attributes children := by
  cases node with
  | element name attributes inside =>
    rw [childrenIf?, Option.ite_none_right_eq_some] at h
    exact ⟨name, attributes, by rw [Option.some.inj h.2]⟩
  | _ => cases h

section Forall

variable {P : Node → Prop}
  (hP : ∀ name attributes children, P (.element name attributes children) →
    ∀ child ∈ children, P child)

include hP

theorem forall_mem_dissolveSections (h : ∀ node ∈ nodes, P node) :
    ∀ node ∈ dissolveSections nodes, P node := by
  intro node hmem
  obtain ⟨outer, houter, hnode⟩ := List.mem_flatMap.1 hmem
  cases hchildren : childrenIf? ["head".toList, "body".toList] outer with
  | none =>
    rw [hchildren] at hnode
    obtain rfl := List.mem_singleton.1 hnode
    exact h _ houter
  | some children =>
    rw [hchildren] at hnode
    obtain ⟨name, attributes, rfl⟩ := childrenIf?_eq_some hchildren
    exact hP name attributes children (h _ houter) node hnode

/-- What holds of nodes and of their children holds of all that dissolving the root leaves. -/
theorem forall_mem_dissolveRoot (h : ∀ node ∈ nodes, P node) :
    ∀ node ∈ dissolveRoot nodes, P node := by
  intro node hmem
  obtain ⟨outer, houter, hnode⟩ := List.mem_flatMap.1 hmem
  cases hchildren : childrenIf? ["html".toList] outer with
  | none =>
    rw [hchildren] at hnode
    obtain rfl := List.mem_singleton.1 hnode
    exact h _ houter
  | some children =>
    rw [hchildren] at hnode
    obtain ⟨name, attributes, rfl⟩ := childrenIf?_eq_some hchildren
    exact forall_mem_dissolveSections hP (hP name attributes children (h _ houter)) node hnode

end Forall

theorem rootOnly_subset (nodes : List Node) : rootOnly nodes ⊆ nodes := by
  rw [rootOnly]
  split
  · next root hfind =>
    intro node hnode
    rw [List.mem_singleton.1 hnode]
    exact List.mem_of_find?_eq_some hfind
  · exact List.Subset.refl _

theorem nodesComments_dissolveSections (nodes : List Node) :
    nodesComments (dissolveSections nodes) = nodesComments nodes := by
  rw [nodesComments_eq_flatMap, dissolveSections, List.flatMap_assoc, nodesComments_eq_flatMap]
  refine List.flatMap_congr fun outer _ => ?_
  rw [← nodesComments_eq_flatMap]
  cases hchildren : childrenIf? ["head".toList, "body".toList] outer with
  | none => exact List.append_nil _
  | some children =>
    obtain ⟨name, attributes, rfl⟩ := childrenIf?_eq_some hchildren
    rfl

/-- Nothing that is dissolved is a comment, and what stood in it keeps its place. -/
theorem nodesComments_dissolveRoot (nodes : List Node) :
    nodesComments (dissolveRoot nodes) = nodesComments nodes := by
  rw [nodesComments_eq_flatMap, dissolveRoot, List.flatMap_assoc, nodesComments_eq_flatMap]
  refine List.flatMap_congr fun outer _ => ?_
  rw [← nodesComments_eq_flatMap]
  cases hchildren : childrenIf? ["html".toList] outer with
  | none => exact List.append_nil _
  | some children =>
    obtain ⟨name, attributes, rfl⟩ := childrenIf?_eq_some hchildren
    exact nodesComments_dissolveSections children

end Markup

end SlimTemplate
