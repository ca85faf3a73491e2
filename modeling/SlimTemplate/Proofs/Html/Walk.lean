import Mathlib.Data.Finset.Card
import Mathlib.Data.Finset.Range
import SlimTemplate.Proofs.Html.Filled
import SlimTemplate.Proofs.Html.Kept
import SlimTemplate.Proofs.Writer.Code

/-!
# The walk over the finished tree

The finished tree is read off the store from the document downwards. In a sound store that walk
meets each cell but the roots exactly once, so that the comments of the tree are the comments of
the store, in tree order in place of the order of their creation.

## Main definitions

* `Html.Arena.below`: the cells of the tree below a cell in tree order.

## Main statements

* `Html.Arena.IsSound.mem_below_iff`, `Html.Arena.IsSound.nodup_below`: the walk meets each cell but
  the roots, and none twice.
* `Html.Arena.IsSound.nodesComments_perm`: the tree has the comments of the store.
* `Html.Arena.IsSound.nodesSpare_toNodes`: the elements that are written without children have
  none.
-/

namespace SlimTemplate

namespace Html

open Markup

/-- A cell below another lies below a cell that is directly below the other. -/
theorem IsUnder.eq_or_last {up : CellId → Option CellId} {c e : CellId} (h : IsUnder up c e) :
    c = e ∨ ∃ d, IsUnder up c d ∧ up d = some e := by
  induction h with
  | self => exact .inl rfl
  | @step c d e hcd _ ih =>
    rcases ih with rfl | ⟨x, hdx, hx⟩
    · exact .inr ⟨c, .self c, hcd⟩
    · exact .inr ⟨x, .step hcd hdx, hx⟩

namespace Arena

variable {a : Arena} {c d p x : CellId} {depth : Nat} {scope : Scope}

/-- The cells of the tree below a cell, down to the given depth and in tree order. -/
def below (a : Arena) : (depth : Nat) → CellId → List CellId
  | 0, _ => []
  | depth + 1, p =>
    (a.reversedChildren p).reverse.flatMap fun c => c :: a.below depth (a.holder c)

theorem HoldsNodes.element?_ne (h : a.HoldsNodes p) (name : Name) (k : CellId) :
    a.element? p ≠ some (name, some k) := by
  intro helement
  rcases h with hroot | ⟨name', hnone⟩
  · rw [hroot.element?_eq] at helement
    cases helement
  · rw [hnone, Option.some.injEq, Prod.mk.injEq] at helement
    cases helement.2

theorem mem_below_succ :
    x ∈ a.below (depth + 1) p ↔
      ∃ c, c ∈ a.reversedChildren p ∧ (x = c ∨ x ∈ a.below depth (a.holder c)) := by
  simp [below]

namespace IsSound

theorem isUnder_holder (h : a.IsSound) (c : CellId) : IsUnder a.up? (a.holder c) c := by
  cases helement : a.element? c with
  | none =>
    rw [holder_eq, helement]
    exact .self c
  | some element =>
    obtain ⟨name, _ | k⟩ := element
    · rw [holder_of_element? helement]
      exact .self c
    · rw [holder_of_template helement]
      obtain ⟨rfl, -, hroot⟩ := h.template _ _ _ helement
      refine .of_up ?_
      rw [up?, h.parent?_root k hroot, Option.none_or, template?_of_element? helement]

theorem up?_of_mem (h : a.IsSound) (hc : c ∈ a.reversedChildren p) : a.up? c = some p :=
  up?_of_parent? ((h.linked.mem_iff p c).1 hc)

theorem lt_size_of_mem (h : a.IsSound) (hc : c ∈ a.reversedChildren p) : c < a.size :=
  lt_size_of_parent? ((h.linked.mem_iff p c).1 hc)

/-- What the walk meets lies below a child of the cell where the walk begins. -/
theorem isUnder_of_mem_below (h : a.IsSound) (hx : x ∈ a.below depth p) :
    ∃ c, IsUnder a.up? x c ∧ a.up? c = some p ∧ c < a.size := by
  induction depth generalizing p with
  | zero => cases hx
  | succ depth ih =>
    obtain ⟨c, hc, hx⟩ := mem_below_succ.1 hx
    refine ⟨c, ?_, h.up?_of_mem hc, h.lt_size_of_mem hc⟩
    rcases hx with rfl | hx
    · exact .self x
    · obtain ⟨d, hxd, hd, -⟩ := ih hx
      exact (hxd.trans (.of_up hd)).trans (h.isUnder_holder c)

/-- The walk meets only cells that have a parent. -/
theorem parent?_of_mem_below (h : a.IsSound) (hx : x ∈ a.below depth p) :
    ∃ q, a.parent? x = some q := by
  induction depth generalizing p with
  | zero => cases hx
  | succ depth ih =>
    obtain ⟨c, hc, rfl | hx⟩ := mem_below_succ.1 hx
    · exact ⟨p, (h.linked.mem_iff p x).1 hc⟩
    · exact ih hx

/-- The walk does not come back to a cell at or above which it began. -/
theorem not_mem_below (h : a.IsSound) (hp : IsUnder a.up? p x) : x ∉ a.below depth p := by
  intro hx
  obtain ⟨c, hxc, hc, hlt⟩ := h.isUnder_of_mem_below hx
  exact h.hang.not_isUnder_of_up hlt hc (hp.trans hxc)

/-- The walk meets no cell twice. -/
theorem nodup_below (h : a.IsSound) (depth : Nat) (p : CellId) : (a.below depth p).Nodup := by
  induction depth generalizing p with
  | zero => exact List.nodup_nil
  | succ depth ih =>
    have hunder : ∀ {c y}, y ∈ c :: a.below depth (a.holder c) → IsUnder a.up? y c := by
      intro c y hy
      rcases List.mem_cons.1 hy with rfl | hy
      · exact .self y
      · obtain ⟨d, hyd, hd, -⟩ := h.isUnder_of_mem_below hy
        exact (hyd.trans (.of_up hd)).trans (h.isUnder_holder c)
    refine List.nodup_flatMap.2 ⟨fun c hc => ?_, ?_⟩
    · exact List.nodup_cons.2 ⟨h.not_mem_below (h.isUnder_holder c), ih _⟩
    · refine (List.nodup_reverse.2 (h.linked.nodup p)).imp_of_mem fun {c d} hc hd hne => ?_
      have hc := List.mem_reverse.1 hc
      have hd := List.mem_reverse.1 hd
      intro y hyc hyd
      -- Of two children above one cell, one lies below the other and so does their parent.
      rcases (hunder hyc).linear (hunder hyd) with hcd | hdc
      · have hpd := hcd.of_up_of_ne hne (h.up?_of_mem hc)
        exact h.hang.not_isUnder_of_up (h.lt_size_of_mem hd) (h.up?_of_mem hd) hpd
      · have hpc := hdc.of_up_of_ne (Ne.symm hne) (h.up?_of_mem hd)
        exact h.hang.not_isUnder_of_up (h.lt_size_of_mem hc) (h.up?_of_mem hc) hpc

/-- A cell is a child of the cell that it is directly below, or the cell of its contents. -/
theorem up?_cases (h : a.IsSound) (hup : a.up? d = some c) :
    a.parent? d = some c ∧ a.HoldsNodes c ∨ ∃ name, a.element? c = some (name, some d) := by
  cases hparent : a.parent? d with
  | some q =>
    rw [up?_of_parent? hparent] at hup
    exact .inl ⟨hup, h.holdsNodes d c (hparent.trans hup)⟩
  | none =>
    rw [up?, hparent, Option.none_or] at hup
    exact .inr (template?_eq_some hup).2

/-- A cell below one that holds nodes lies below one of its children. -/
theorem isUnder_child (h : a.IsSound) (hp : a.HoldsNodes p) (hx : IsUnder a.up? x p)
    (hne : x ≠ p) : ∃ c, IsUnder a.up? x c ∧ c ∈ a.reversedChildren p := by
  obtain ⟨c, hxc, hc⟩ := hx.eq_or_last.resolve_left hne
  rcases h.up?_cases hc with ⟨hparent, -⟩ | ⟨name, helement⟩
  · exact ⟨c, hxc, (h.linked.mem_iff p c).2 hparent⟩
  · exact absurd helement (hp.element?_ne name c)

/-- A node below a node lies below the cell that holds what stands in that node. -/
theorem isUnder_holder_of_ne (h : a.IsSound) (hc : ¬a.IsRoot c) (hx : IsUnder a.up? x c)
    (hne : x ≠ c) (hroot : ¬a.IsRoot x) :
    a.HoldsNodes (a.holder c) ∧ IsUnder a.up? x (a.holder c) ∧ x ≠ a.holder c := by
  obtain ⟨d, hxd, hd⟩ := hx.eq_or_last.resolve_left hne
  rcases h.up?_cases hd with ⟨-, hholds⟩ | ⟨name, helement⟩
  · obtain ⟨name, helement⟩ := hholds.resolve_left hc
    rw [holder_of_element? helement]
    exact ⟨hholds, hx, hne⟩
  · obtain ⟨-, -, hdroot⟩ := h.template _ _ _ helement
    rw [holder_of_template helement]
    exact ⟨.inl hdroot, hxd, fun heq => hroot (heq ▸ hdroot)⟩

open Classical in
/-- Fewer cells lie below what a child holds its nodes in than below its parent. -/
theorem card_isUnder_lt (h : a.IsSound) (hc : c ∈ a.reversedChildren p) :
    ((Finset.range a.size).filter (IsUnder a.up? · (a.holder c))).card <
      ((Finset.range a.size).filter (IsUnder a.up? · p)).card := by
  have hunder := (h.isUnder_holder c).trans (.of_up (h.up?_of_mem hc))
  refine Finset.card_lt_card ⟨fun y hy => ?_, fun hsub => ?_⟩
  · obtain ⟨hlt, hy⟩ := Finset.mem_filter.1 hy
    exact Finset.mem_filter.2 ⟨hlt, hy.trans hunder⟩
  · have hlt := Finset.mem_range.2 (lt_size_of_mem_reversedChildren hc)
    obtain ⟨-, hp⟩ := Finset.mem_filter.1 (hsub (Finset.mem_filter.2 ⟨hlt, .self p⟩))
    refine h.hang.not_isUnder_of_up (h.lt_size_of_mem hc) (h.up?_of_mem hc) ?_
    exact hp.trans (h.isUnder_holder c)

open Classical in
theorem mem_below_of_card_le (h : a.IsSound) (hlt : x < a.size) (hroot : ¬a.IsRoot x)
    (hp : a.HoldsNodes p)
    (hcard : ((Finset.range a.size).filter (IsUnder a.up? · p)).card ≤ depth)
    (hx : IsUnder a.up? x p) (hne : x ≠ p) : x ∈ a.below depth p := by
  induction depth generalizing p with
  | zero =>
    have hempty := Finset.card_eq_zero.1 (Nat.le_zero.1 hcard)
    exact absurd (hempty ▸ Finset.mem_filter.2 ⟨Finset.mem_range.2 hlt, hx⟩) (Finset.notMem_empty x)
  | succ depth ih =>
    obtain ⟨c, hxc, hc⟩ := h.isUnder_child hp hx hne
    refine mem_below_succ.2 ⟨c, hc, or_iff_not_imp_left.2 fun hne => ?_⟩
    have hcroot := h.not_isRoot_of_parent? ((h.linked.mem_iff p c).1 hc)
    obtain ⟨hholds, hunder, hne⟩ := h.isUnder_holder_of_ne hcroot hxc hne hroot
    exact ih hholds (Nat.le_of_lt_succ (Nat.lt_of_lt_of_le (h.card_isUnder_lt hc) hcard)) hunder hne

/-- The walk from the document meets all cells but the roots. -/
theorem mem_below_iff (h : a.IsSound) :
    x ∈ a.below a.size Arena.document ↔ x < a.size ∧ ¬a.IsRoot x := by
  classical
  constructor
  · intro hx
    obtain ⟨q, hq⟩ := h.parent?_of_mem_below hx
    exact ⟨lt_size_of_parent? hq, h.not_isRoot_of_parent? hq⟩
  · rintro ⟨hlt, hroot⟩
    refine h.mem_below_of_card_le hlt hroot (.inl h.document) ?_ (h.hang.isUnder x hlt) ?_
    · exact (Finset.card_filter_le _ _).trans_eq (Finset.card_range _)
    · rintro rfl
      exact hroot h.document

/-- The walk meets the comments of the store, each once. -/
theorem comments_below_perm (h : a.IsSound) :
    ((a.below a.size Arena.document).filterMap a.comment?).Perm a.comments := by
  classical
  have hcells : (a.below a.size Arena.document).Perm
      ((List.range a.size).filter fun c => !decide (a.IsRoot c)) := by
    refine (List.perm_ext_iff_of_nodup (h.nodup_below _ _) (List.nodup_range.filter _)).2 ?_
    intro x
    rw [h.mem_below_iff, List.mem_filter, List.mem_range, Bool.not_eq_true', decide_eq_false_iff_not]
  -- A root is no comment, so that nothing is lost where roots are left out.
  have hroots : a.comments = ((List.range a.size).filter fun c => !decide (a.IsRoot c)).filterMap
      a.comment? := by
    rw [comments, List.filterMap_filter]
    refine List.filterMap_congr fun c _ => ?_
    split
    · rfl
    · next hc =>
      have hroot : a.IsRoot c := by simpa using hc
      rw [comment?, hroot]
      rfl
  rw [hroots]
  exact hcells.filterMap _

end IsSound

/-! ## The nodes of the tree -/

/-- The node of an element has the comments of its children, be it marked or not. -/
theorem comments_elementNode (name : Name) (attributes : List Markup.Attribute)
    (children : List Node) :
    (elementNode name attributes children).comments = nodesComments children := by
  rw [elementNode]
  split
  · unfold Node.ofMarker
    split <;> rfl
  · rfl

/-- Cells that are no elements hold nothing, but for roots. -/
theorem IsSound.below_eq_nil (h : a.IsSound) (hroot : ¬a.IsRoot c) (helement : a.element? c = none)
    (depth : Nat) : a.below depth (a.holder c) = [] := by
  have hchildren : a.reversedChildren c = [] := by
    refine List.eq_nil_iff_forall_not_mem.2 fun d hd => ?_
    rcases h.holdsNodes d c ((h.linked.mem_iff c d).1 hd) with hc | ⟨name, hc⟩
    · exact hroot hc
    · rw [helement] at hc
      cases hc
  rw [holder_eq, helement]
  show a.below depth c = []
  cases depth with
  | zero => rfl
  | succ depth => rw [below, hchildren, List.reverse_nil, List.flatMap_nil]

/-- The comments of the finished tree are those that the walk meets. -/
theorem IsSound.nodesComments_toNodes (h : a.IsSound) (depth : Nat) (p : CellId) :
    nodesComments (a.toNodes depth p) = (a.below depth p).filterMap a.comment? := by
  induction depth generalizing p with
  | zero => rfl
  | succ depth ih =>
    rw [toNodes_succ, below, List.filterMap_flatMap, nodesComments_eq_flatMap,
      List.filterMap_eq_flatMap_toList, List.flatMap_assoc]
    refine List.flatMap_congr fun c hc => ?_
    have hroot := h.not_isRoot_of_parent? ((h.linked.mem_iff p c).1 (List.mem_reverse.1 hc))
    have hcomment : a.comment? c = (a.content? c).bind Content.comment? := rfl
    have helement : a.element? c = (a.content? c).bind Content.element? := rfl
    cases hcontent : a.content? c with
    | none =>
      rw [hcontent] at hcomment helement
      rw [List.filterMap_cons_none hcomment, h.below_eq_nil hroot helement]
      rfl
    | some content =>
      rw [hcontent] at hcomment helement
      cases content with
      | root => exact absurd hcontent hroot
      | element name attributes contents =>
        rw [List.filterMap_cons_none hcomment, ← ih]
        show (elementNode name attributes _).comments ++ [] = _
        rw [List.append_nil, comments_elementNode]
      | text reversed =>
        rw [List.filterMap_cons_none hcomment, h.below_eq_nil hroot helement]
        rfl
      | comment data =>
        rw [List.filterMap_cons_some hcomment, h.below_eq_nil hroot helement]
        rfl

/-- The finished tree has the comments of the store, in tree order. -/
theorem IsSound.nodesComments_perm (h : a.IsSound) :
    (nodesComments (a.toNodes a.size Arena.document)).Perm a.comments := by
  rw [h.nodesComments_toNodes]
  exact h.comments_below_perm

/-! ## Elements that are written without children -/

/-- The elements that the writer writes without children are those that never hold anything. -/
theorem isEmptyElement_of_isVoid {name : String} (h : Writer.isVoid name.toList = true) :
    isEmptyElement name = true := by
  rw [Writer.isVoid, List.contains_eq_mem, decide_eq_true_eq] at h
  obtain ⟨word, hword, heq⟩ := List.mem_map.1 h
  have hempty : ∀ word ∈ ["area", "base", "br", "col", "embed", "hr", "img", "input", "link",
      "meta", "param", "source", "track", "wbr"], isEmptyElement word = true := by decide
  exact String.toList_inj.1 heq ▸ hempty word hword

theorem toNodes_eq_nil (h : a.reversedChildren p = []) (depth : Nat) : a.toNodes depth p = [] := by
  cases depth with
  | zero => rfl
  | succ depth => rw [toNodes_succ, h, List.reverse_nil, List.filterMap_nil]

theorem elementNode_spares {name : Name} {attributes : List Markup.Attribute}
    {children : List Node} (hvoid : Writer.isVoid name.local.toList = true → children = [])
    (h : nodesSpare children) : (elementNode name attributes children).Spares := by
  rw [elementNode]
  split
  · unfold Node.ofMarker
    split <;> exact h
  · exact ⟨hvoid, h⟩

/-- Where only elements of other names are filled, all children are written. -/
theorem IsSound.nodesSpare_toNodes (h : a.IsSound) (hf : a.IsFilled scope)
    (hscope : ∀ name, scope.Fills name → isEmptyElement name.local = false) (depth : Nat)
    (p : CellId) : nodesSpare (a.toNodes depth p) := by
  induction depth generalizing p with
  | zero => trivial
  | succ depth ih =>
    rw [nodesSpare_iff]
    intro node hnode
    rcases mem_toNodes_succ hnode with
      ⟨c, name, attributes, contents, hcontent, rfl⟩ | ⟨content, rfl | rfl⟩
    · refine elementNode_spares (fun hvoid => toNodes_eq_nil ?_ depth) (ih _)
      have helement : a.element? c = some (name, contents) := by
        rw [element?, hcontent]
        rfl
      have hempty := isEmptyElement_of_isVoid hvoid
      refine List.eq_nil_iff_forall_not_mem.2 fun d hd => ?_
      cases contents with
      | none =>
        rw [holder_of_element? helement] at hd
        have hfills := hf d c ((h.linked.mem_iff c d).1 hd) _ _ helement
        rw [hscope name hfills] at hempty
        cases hempty
      | some k =>
        have htemplate : name.isHtml "template" = true :=
          (h.isSome_contents c name (some k) helement).symm
        rw [Name.isHtml, Bool.and_eq_true, beq_iff_eq, beq_iff_eq] at htemplate
        rw [htemplate.2] at hempty
        cases hempty
    · trivial
    · trivial

end Arena

end Html

end SlimTemplate
