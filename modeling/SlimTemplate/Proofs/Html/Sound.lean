import SlimTemplate.Proofs.Html.Ascent
import SlimTemplate.Proofs.Html.Links

/-!
# Sound stores of cells

A store is sound when parents and children agree, only elements and roots have children, and all
cells lie below the document. A template does not hold its children itself: it stands directly
behind the cell of its contents, which has no parent and lies below the template all the same.

## Main definitions

* `Html.Arena.element?`: the name of an element and the cell of its contents.
* `Html.Arena.up?`: the cell that a cell is directly below.
* `Html.Arena.IsSound`: sound stores.
* `Html.Arena.IsWellFormed`: stores that are sound but for cells that are not below the document.
* `Html.Arena.Puts`: a cell is made a child of another.

## Main statements

* `Html.Arena.IsSound.parent?_isSome`: all cells but roots have a parent.
* `Html.Arena.IsWellFormed.relink`: links may change as long as they lead to what holds nodes.
* `Html.Arena.IsSound.put`, `Html.Arena.IsSound.putTemplate`: new cells that are put into a sound
  store leave it sound.
-/

namespace SlimTemplate.Html

/-- Whether a cell with this content is neither a root nor a template. -/
def Content.IsPlain : Content → Prop
  | .root => False
  | .element name _ contents => contents = none ∧ name.isHtml "template" = false
  | .text _ | .comment _ => True

/-- The name of an element, and the cell of its contents if it has one. -/
def Content.element? : Content → Option (Name × Option CellId)
  | .element name _ contents => some (name, contents)
  | _ => none

/-- The data of a comment. -/
def Content.comment? : Content → Option Text
  | .comment data => some data
  | _ => none

namespace Arena

/-- The name of the element that a cell stands for, and the cell of its contents. -/
def element? (a : Arena) (c : CellId) : Option (Name × Option CellId) :=
  (a.content? c).bind Content.element?

/-- The data of the comment that a cell stands for. -/
def comment? (a : Arena) (c : CellId) : Option Text :=
  (a.content? c).bind Content.comment?

/-- Whether a cell is the document or the contents of a template. -/
def IsRoot (a : Arena) (c : CellId) : Prop :=
  a.content? c = some .root

/-- Whether a cell holds nodes as its children. -/
def HoldsNodes (a : Arena) (c : CellId) : Prop :=
  a.IsRoot c ∨ ∃ name, a.element? c = some (name, none)

/-- The template whose contents a cell is. A template stands directly behind its contents. -/
def template? (a : Arena) (c : CellId) : Option CellId :=
  match a.element? (c + 1) with
  | some (_, some contents) => if contents = c then some (c + 1) else none
  | _ => none

/-- The cell that a cell is directly below: its parent, or the template that it belongs to. -/
def up? (a : Arena) (c : CellId) : Option CellId :=
  (a.parent? c).or (a.template? c)

/-- A store in which all cells lie below the document. -/
structure IsSound (a : Arena) : Prop where
  linked : a.IsLinked
  document : a.IsRoot document
  /-- The document and the contents of templates have no parent. -/
  parent?_root : ∀ c, a.IsRoot c → a.parent? c = none
  holdsNodes : ∀ c p, a.parent? c = some p → a.HoldsNodes p
  template : ∀ t name k, a.element? t = some (name, some k) →
    t = k + 1 ∧ k ≠ Arena.document ∧ a.IsRoot k
  isSome_contents : ∀ t name contents, a.element? t = some (name, contents) →
    contents.isSome = name.isHtml "template"
  hang : HangFrom a.up? Arena.document (· < a.size)

variable {a a' : Arena} {c d p q k t x : CellId} {name : Name} {contents : Option CellId}

theorem element?_congr (h : a'.content? c = a.content? c) : a'.element? c = a.element? c := by
  rw [element?, h, element?]

theorem isRoot_congr (h : a'.content? c = a.content? c) : a'.IsRoot c ↔ a.IsRoot c := by
  rw [IsRoot, h, IsRoot]

theorem holdsNodes_congr (h : a'.content? c = a.content? c) : a'.HoldsNodes c ↔ a.HoldsNodes c := by
  rw [HoldsNodes, isRoot_congr h, element?_congr h, HoldsNodes]

theorem template?_congr (h : ∀ d, a'.content? d = a.content? d) :
    a'.template? c = a.template? c := by
  rw [template?, element?_congr (h (c + 1)), template?]

theorem holder_eq (a : Arena) (c : CellId) :
    a.holder c = ((a.element? c).bind (·.2)).getD c := by
  rw [holder, element?, content?]
  rcases a.cells[c]? with _ | ⟨_ | ⟨n, at', _ | k⟩ | r | d, p, r'⟩ <;> rfl

theorem holder_of_element? (h : a.element? c = some (name, none)) : a.holder c = c := by
  rw [holder_eq, h]
  rfl

theorem holder_of_template (h : a.element? t = some (name, some k)) : a.holder t = k := by
  rw [holder_eq, h]
  rfl

theorem lt_size_of_element? {e : Name × Option CellId} (h : a.element? c = some e) :
    c < a.size := by
  obtain ⟨content, hcontent, -⟩ := Option.bind_eq_some_iff.1 h
  exact lt_size_of_content? hcontent

theorem IsRoot.lt_size (h : a.IsRoot c) : c < a.size :=
  lt_size_of_content? h

theorem IsRoot.element?_eq (h : a.IsRoot c) : a.element? c = none := by
  rw [element?, h]
  rfl

theorem HoldsNodes.lt_size (h : a.HoldsNodes c) : c < a.size := by
  rcases h with h | ⟨name, h⟩
  · exact h.lt_size
  · exact lt_size_of_element? h

theorem template?_eq_some (h : a.template? c = some t) :
    t = c + 1 ∧ ∃ name, a.element? t = some (name, some c) := by
  rw [template?] at h
  split at h
  · next name contents helement =>
    split at h
    · next hc =>
      obtain rfl : c + 1 = t := Option.some.inj h
      obtain rfl : contents = c := hc
      exact ⟨rfl, name, helement⟩
    · cases h
  · cases h

theorem template?_of_element? (h : a.element? (c + 1) = some (name, some c)) :
    a.template? c = some (c + 1) := by
  rw [template?, h]
  exact if_pos rfl

theorem up?_of_parent? (h : a.parent? c = some p) : a.up? c = some p := by
  rw [up?, h]
  rfl

namespace IsSound

theorem lt_size_of_up? (h : a.IsSound) (hup : a.up? c = some p) : p < a.size := by
  rw [up?] at hup
  rcases hparent : a.parent? c with _ | p'
  · rw [hparent, Option.none_or] at hup
    obtain ⟨-, name, helement⟩ := template?_eq_some hup
    exact lt_size_of_element? helement
  · rw [hparent, Option.some_or, Option.some.injEq] at hup
    rw [← hup]
    exact h.linked.lt_size hparent

theorem template?_eq_none (h : a.IsSound) (hroot : ¬a.IsRoot c) : a.template? c = none := by
  by_contra hne
  obtain ⟨t, ht⟩ := Option.ne_none_iff_exists'.1 hne
  obtain ⟨-, name, helement⟩ := template?_eq_some ht
  exact hroot (h.template _ _ _ helement).2.2

/-- All cells but roots have a parent. -/
theorem parent?_isSome (h : a.IsSound) (hc : c < a.size) (hroot : ¬a.IsRoot c) :
    ∃ p, a.parent? c = some p := by
  have hne : c ≠ Arena.document := by
    rintro rfl
    exact hroot h.document
  rcases (h.hang.isUnder c hc).eq_or_up with hdoc | ⟨d, hup, -⟩
  · exact absurd hdoc hne
  · rw [up?, h.template?_eq_none hroot, Option.or_none] at hup
    exact ⟨d, hup⟩

/-- What holds the nodes of an element. -/
theorem holdsNodes_holder (h : a.IsSound) (helement : a.element? t = some (name, contents)) :
    a.HoldsNodes (a.holder t) := by
  cases contents with
  | none =>
    rw [holder_of_element? helement]
    exact Or.inr ⟨name, helement⟩
  | some k =>
    rw [holder_of_template helement]
    exact Or.inl (h.template t name k helement).2.2

end IsSound

/-! ## Stores in which cells need not be below the document -/

/-- A store that is sound but for cells that are not below the document. -/
structure IsWellFormed (a : Arena) : Prop where
  linked : a.IsLinked
  document : a.IsRoot document
  parent?_root : ∀ c, a.IsRoot c → a.parent? c = none
  holdsNodes : ∀ c p, a.parent? c = some p → a.HoldsNodes p
  template : ∀ t name k, a.element? t = some (name, some k) →
    t = k + 1 ∧ k ≠ Arena.document ∧ a.IsRoot k
  isSome_contents : ∀ t name contents, a.element? t = some (name, contents) →
    contents.isSome = name.isHtml "template"

theorem IsSound.isWellFormed (h : a.IsSound) : a.IsWellFormed :=
  ⟨h.linked, h.document, h.parent?_root, h.holdsNodes, h.template, h.isSome_contents⟩

theorem IsWellFormed.isSound (h : a.IsWellFormed)
    (hang : HangFrom a.up? Arena.document (· < a.size)) : a.IsSound :=
  ⟨h.linked, h.document, h.parent?_root, h.holdsNodes, h.template, h.isSome_contents, hang⟩

/-- Links may change as long as they lead from cells that are no roots to what holds nodes. -/
theorem IsWellFormed.relink (h : a.IsWellFormed) (hcontent : ∀ c, a'.content? c = a.content? c)
    (hlinked : a'.IsLinked)
    (hparent : ∀ c p, a'.parent? c = some p → ¬a.IsRoot c ∧ a.HoldsNodes p) :
    a'.IsWellFormed where
  linked := hlinked
  document := (isRoot_congr (hcontent _)).2 h.document
  parent?_root c hc := by
    rw [isRoot_congr (hcontent c)] at hc
    cases hp : a'.parent? c with
    | none => rfl
    | some p => exact absurd hc (hparent c p hp).1
  holdsNodes c p hp := (holdsNodes_congr (hcontent p)).2 (hparent c p hp).2
  template t name k ht := by
    rw [element?_congr (hcontent t)] at ht
    rw [isRoot_congr (hcontent k)]
    exact h.template t name k ht
  isSome_contents t name contents ht := by
    rw [element?_congr (hcontent t)] at ht
    exact h.isSome_contents t name contents ht

theorem IsWellFormed.not_isRoot_of_parent? (h : a.IsWellFormed) (hparent : a.parent? c = some p) :
    ¬a.IsRoot c := by
  intro hroot
  rw [h.parent?_root c hroot] at hparent
  cases hparent

theorem IsSound.not_isRoot_of_parent? (h : a.IsSound) (hparent : a.parent? c = some p) :
    ¬a.IsRoot c :=
  h.isWellFormed.not_isRoot_of_parent? hparent

/-! ## Stores that differ in texts and attributes only -/

/-- Two stores with the same cells, links, roots, elements and comments. -/
structure SameShape (a a' : Arena) : Prop where
  size : a'.size = a.size
  parent? : ∀ c, a'.parent? c = a.parent? c
  reversedChildren : ∀ c, a'.reversedChildren c = a.reversedChildren c
  isRoot : ∀ c, a'.IsRoot c ↔ a.IsRoot c
  element? : ∀ c, a'.element? c = a.element? c
  comment? : ∀ c, a'.comment? c = a.comment? c

namespace SameShape

theorem template? (h : SameShape a a') (c : CellId) : a'.template? c = a.template? c := by
  rw [Arena.template?, h.element?, Arena.template?]

theorem up? (h : SameShape a a') (c : CellId) : a'.up? c = a.up? c := by
  rw [Arena.up?, h.parent?, h.template?, Arena.up?]

theorem holdsNodes (h : SameShape a a') : a'.HoldsNodes c ↔ a.HoldsNodes c := by
  rw [HoldsNodes, h.isRoot, h.element?, HoldsNodes]

theorem isSound (h : SameShape a a') (hsound : a.IsSound) : a'.IsSound where
  linked := by
    constructor
    · intro p c
      rw [h.reversedChildren, h.parent?]
      exact hsound.linked.mem_iff p c
    · intro p
      rw [h.reversedChildren]
      exact hsound.linked.nodup p
  document := (h.isRoot _).2 hsound.document
  parent?_root c hc := by
    rw [h.parent?]
    exact hsound.parent?_root c ((h.isRoot c).1 hc)
  holdsNodes c p hp := by
    rw [h.parent?] at hp
    exact h.holdsNodes.2 (hsound.holdsNodes c p hp)
  template t name k ht := by
    rw [h.element?] at ht
    rw [h.isRoot]
    exact hsound.template t name k ht
  isSome_contents t name contents ht := by
    rw [h.element?] at ht
    exact hsound.isSome_contents t name contents ht
  hang := by
    have hup : a'.up? = a.up? := funext h.up?
    rw [hup, h.size]
    exact hsound.hang

end SameShape

theorem sameShape_modify (a : Arena) (id : CellId) {f : Cell → Cell}
    (hparent : ∀ cell, (f cell).parent = cell.parent)
    (hreversed : ∀ cell, (f cell).reversed = cell.reversed)
    (hroot : ∀ cell, (f cell).content = .root ↔ cell.content = .root)
    (helement : ∀ cell, (f cell).content.element? = cell.content.element?)
    (hcomment : ∀ cell, (f cell).content.comment? = cell.content.comment?) :
    SameShape a (a.modify id f) := by
  refine ⟨size_modify a id f, parent?_modify a id hparent, reversedChildren_modify a id hreversed,
    fun c => ?_, fun c => ?_, fun c => ?_⟩
  · rw [IsRoot, content?, getElem?_modify, IsRoot, content?]
    cases a.cells[c]? with
    | none => simp
    | some cell => split <;> simp [hroot]
  · rw [Arena.element?, content?, getElem?_modify, Arena.element?, content?]
    cases a.cells[c]? with
    | none => simp
    | some cell => split <;> simp [helement]
  · rw [Arena.comment?, content?, getElem?_modify, Arena.comment?, content?]
    cases a.cells[c]? with
    | none => simp
    | some cell => split <;> simp [hcomment]

theorem sameShape_extendText (a : Arena) (id : CellId) (c : Char) :
    SameShape a (a.extendText id c) := by
  refine sameShape_modify a id (fun cell => ?_) (fun cell => ?_) (fun cell => ?_)
    (fun cell => ?_) fun cell => ?_
  all_goals
    obtain ⟨_ | _ | _ | _, _, _⟩ := cell <;> simp [Content.element?, Content.comment?]

theorem sameShape_addMissing (a : Arena) (id : CellId) (more : List Markup.Attribute) :
    SameShape a (a.addMissing id more) := by
  refine sameShape_modify a id (fun cell => ?_) (fun cell => ?_) (fun cell => ?_)
    (fun cell => ?_) fun cell => ?_
  all_goals
    obtain ⟨_ | _ | _ | _, _, _⟩ := cell <;> simp [Content.element?, Content.comment?]

/-! ## New cells -/

/-- A cell is made a child of another, and no other link changes. -/
structure Puts (a a' : Arena) (c p : CellId) : Prop where
  size : a'.size = a.size
  content? : ∀ d, a'.content? d = a.content? d
  parent? : ∀ d, a'.parent? d = if d = c then some p else a.parent? d
  linked : a.IsLinked → a'.IsLinked

theorem puts_append (hp : p < a.size) (hc : c < a.size) : Puts a (a.append p c) c p :=
  ⟨size_append a p c, content?_append a p c, parent?_append hc p, fun h => h.append hp hc⟩

theorem puts_insertBefore {mark : CellId} (hne : mark ≠ c) (hmark : a.parent? mark = some p)
    (hc : c < a.size) : Puts a (a.insertBefore mark c) c p :=
  ⟨size_insertBefore a mark c, content?_insertBefore a mark c,
    parent?_insertBefore hne hmark hc, fun h => h.insertBefore hne hmark hc⟩

namespace Puts

theorem element? (h : Puts a a' c p) (d : CellId) : a'.element? d = a.element? d :=
  element?_congr (h.content? d)

theorem up? (h : Puts a a' c p) (d : CellId) :
    a'.up? d = if d = c then some p else a.up? d := by
  rw [Arena.up?, h.parent?, template?_congr h.content?, Arena.up?]
  split <;> rfl

/-- A cell that is no root may be put into what holds nodes. -/
theorem isWellFormed (h : Puts a a' c p) (hformed : a.IsWellFormed) (hroot : ¬a.IsRoot c)
    (hp : a.HoldsNodes p) : a'.IsWellFormed := by
  refine hformed.relink h.content? (h.linked hformed.linked) fun d q hq => ?_
  rw [h.parent?] at hq
  split at hq
  · next hd =>
    rw [hd, ← Option.some.inj hq]
    exact ⟨hroot, hp⟩
  · exact ⟨hformed.not_isRoot_of_parent? hq, hformed.holdsNodes d q hq⟩

end Puts

theorem element?_add (a : Arena) (content : Content) (c : CellId) :
    (a.add content).2.element? c =
      if c = a.size then content.element? else a.element? c := by
  rw [element?, content?_add, element?]
  split <;> rfl

theorem isRoot_add (a : Arena) (content : Content) :
    (a.add content).2.IsRoot c ↔ if c = a.size then content = .root else a.IsRoot c := by
  rw [IsRoot, content?_add, IsRoot]
  split <;> simp

theorem element?_size (a : Arena) : a.element? a.size = none := by
  rw [element?, content?, getElem?_size]
  rfl

theorem not_isRoot_size (a : Arena) : ¬a.IsRoot a.size :=
  fun h => Nat.lt_irrefl _ h.lt_size

namespace IsSound

theorem lt_size_of_isUnder (h : a.IsSound) (hcd : IsUnder a.up? c d) (hc : c < a.size) :
    d < a.size := by
  induction hcd with
  | self => exact hc
  | step hup _ ih => exact ih (h.lt_size_of_up? hup)

/-- Links that agree for all cells of a sound store have the same above them. -/
theorem isUnder_iff (h : a.IsSound) {up : CellId → Option CellId}
    (hup : ∀ c < a.size, up c = a.up? c) (hc : c < a.size) :
    IsUnder up c d ↔ IsUnder a.up? c d := by
  refine ⟨fun hcd => ?_, fun hcd => hcd.congr fun y hy => hup y (h.lt_size_of_isUnder hy hc)⟩
  induction hcd with
  | self => exact IsUnder.self _
  | @step c e d hce _ ih =>
    rw [hup c hc] at hce
    exact IsUnder.step hce (ih (h.lt_size_of_up? hce))

end IsSound

/-- A store after new cells have been put into it: one that is directly below a cell `q`, and
perhaps one directly below that. -/
structure Grows (a a' : Arena) (x q : CellId) : Prop where
  isSound : a'.IsSound
  content? : ∀ c < a.size, a'.content? c = a.content? c
  up? : ∀ c < a.size, a'.up? c = a.up? c
  size_le : a.size ≤ x
  lt_size : x < a'.size
  up?_new : a'.up? x = some q

theorem Grows.isUnder_iff (h : Grows a a' x q) (hsound : a.IsSound) (hc : c < a.size) :
    IsUnder a'.up? c d ↔ IsUnder a.up? c d :=
  hsound.isUnder_iff h.up? hc

theorem HoldsNodes.add (h : a.HoldsNodes c) (content : Content) :
    (a.add content).2.HoldsNodes c := by
  have hne : c ≠ a.size := Nat.ne_of_lt h.lt_size
  rw [HoldsNodes, isRoot_add, element?_add, if_neg hne, if_neg hne]
  exact h

theorem template?_add {content : Content} (h : content.IsPlain) (c : CellId) :
    (a.add content).2.template? c = a.template? c := by
  rw [template?, element?_add, template?]
  by_cases hc : c + 1 = a.size
  · rw [if_pos hc, hc, element?_size]
    cases content with
    | element name attributes contents => rw [h.1, Content.element?]
    | _ => rfl
  · rw [if_neg hc]

theorem isRoot_add_of_isPlain {content : Content} (h : content.IsPlain) :
    (a.add content).2.IsRoot c ↔ a.IsRoot c := by
  rw [isRoot_add]
  split
  · next hc =>
    rw [hc]
    refine ⟨fun hcontent => ?_, fun hroot => absurd hroot a.not_isRoot_size⟩
    rw [hcontent] at h
    exact h.elim
  · rfl

/-- A new cell that is neither a root nor a template has no contents of its own. -/
theorem element?_add_cases {content : Content} (h : content.IsPlain)
    (ht : (a.add content).2.element? t = some (name, contents)) :
    a.element? t = some (name, contents) ∨ contents = none ∧ name.isHtml "template" = false := by
  rw [element?_add] at ht
  split at ht
  · cases content with
    | element name' attributes contents' =>
      simp only [Content.element?, Option.some.injEq, Prod.mk.injEq] at ht
      obtain ⟨rfl, rfl⟩ := ht
      exact Or.inr h
    | _ => cases ht
  · exact Or.inl ht

theorem IsWellFormed.add (h : a.IsWellFormed) {content : Content} (hplain : content.IsPlain) :
    (a.add content).2.IsWellFormed where
  linked := h.linked.add content
  document := (isRoot_add_of_isPlain hplain).2 h.document
  parent?_root c hc := by
    rw [parent?_add]
    exact h.parent?_root c ((isRoot_add_of_isPlain hplain).1 hc)
  holdsNodes c p hp := by
    rw [parent?_add] at hp
    exact (h.holdsNodes c p hp).add content
  template t name k ht := by
    rw [isRoot_add_of_isPlain hplain]
    rcases element?_add_cases hplain ht with ht | ⟨hk, -⟩
    · exact h.template t name k ht
    · cases hk
  isSome_contents t name contents ht := by
    rcases element?_add_cases hplain ht with ht | ⟨rfl, hname⟩
    · exact h.isSome_contents t name contents ht
    · rw [hname]
      rfl

theorem Puts.up?_add {content : Content} (h : Puts (a.add content).2 a' a.size q)
    (hplain : content.IsPlain) (c : CellId) :
    a'.up? c = if c = a.size then some q else a.up? c := by
  rw [h.up?, Arena.up?, parent?_add, template?_add hplain, Arena.up?]

theorem hangFrom_of_up? {up : CellId → Option CellId} (h : a.IsSound) (hq : q < a.size)
    (hup : ∀ c < a.size, up c = a.up? c) {cells : CellId → Prop}
    (hcells : ∀ c, cells c → c < a.size ∨ up c = some q ∨ ∃ x, up c = some x ∧ up x = some q) :
    HangFrom up document cells where
  top_eq := by
    rw [hup document h.document.lt_size]
    exact h.hang.top_eq
  isUnder c hc := by
    have hqdoc : IsUnder up q document := (h.isUnder_iff hup hq).2 (h.hang.isUnder q hq)
    rcases hcells c hc with hc | hc | ⟨x, hc, hx⟩
    · exact (h.isUnder_iff hup hc).2 (h.hang.isUnder c hc)
    · exact IsUnder.step hc hqdoc
    · exact IsUnder.step hc (IsUnder.step hx hqdoc)

/-- A new cell that is put into a sound store leaves it sound. -/
theorem IsSound.put (h : a.IsSound) (hq : a.HoldsNodes q) {content : Content}
    (hplain : content.IsPlain) (hput : Puts (a.add content).2 a' a.size q) :
    Grows a a' a.size q := by
  have hsize : a'.size = a.size + 1 := by rw [hput.size, size_add]
  have hold : ∀ c < a.size, a'.up? c = a.up? c := by
    intro c hc
    rw [hput.up?_add hplain, if_neg (Nat.ne_of_lt hc)]
  have hnew : a'.up? a.size = some q := by rw [hput.up?_add hplain, if_pos rfl]
  have hroot : ¬(a.add content).2.IsRoot a.size := by
    rw [isRoot_add_of_isPlain hplain]
    exact a.not_isRoot_size
  have hformed : a'.IsWellFormed :=
    hput.isWellFormed (h.isWellFormed.add hplain) hroot (hq.add content)
  have hang : HangFrom a'.up? Arena.document (· < a'.size) := by
    refine hangFrom_of_up? h hq.lt_size hold fun c hc => ?_
    rw [hsize] at hc
    rcases Nat.lt_succ_iff_lt_or_eq.1 hc with hc | rfl
    · exact Or.inl hc
    · exact Or.inr (Or.inl hnew)
  refine ⟨hformed.isSound hang, fun c hc => ?_, hold, Nat.le_refl _, ?_, hnew⟩
  · rw [hput.content?, content?_add, if_neg (Nat.ne_of_lt hc)]
  · rw [hsize]
    exact Nat.lt_succ_self _

/-- A store with a new template that is not yet below any cell. -/
def addTemplate (a : Arena) (name : Name) (attributes : List Markup.Attribute) : Arena :=
  ((a.add .root).2.add (.element name attributes (some a.size))).2

section AddTemplate

variable (a : Arena) (name : Name) (attributes : List Markup.Attribute) (c : CellId)

theorem size_addTemplate : (a.addTemplate name attributes).size = a.size + 2 := by
  rw [addTemplate, size_add, size_add]

theorem parent?_addTemplate : (a.addTemplate name attributes).parent? c = a.parent? c := by
  rw [addTemplate, parent?_add, parent?_add]

theorem content?_addTemplate :
    (a.addTemplate name attributes).content? c =
      if c = a.size + 1 then some (.element name attributes (some a.size))
      else if c = a.size then some .root else a.content? c := by
  rw [addTemplate, content?_add, size_add, content?_add]

theorem element?_addTemplate :
    (a.addTemplate name attributes).element? c =
      if c = a.size + 1 then some (name, some a.size) else a.element? c := by
  rw [addTemplate, element?_add, size_add, element?_add]
  split
  · rfl
  · split
    · next hc =>
      rw [hc, element?_size]
      rfl
    · rfl

theorem isRoot_addTemplate :
    (a.addTemplate name attributes).IsRoot c ↔ c = a.size ∨ a.IsRoot c := by
  rw [addTemplate, isRoot_add, size_add, isRoot_add]
  by_cases hc : c = a.size
  · simp [hc]
  · by_cases hc' : c = a.size + 1
    · rw [if_pos hc']
      refine ⟨fun h => (nomatch h), fun h => ?_⟩
      have hlt := (h.resolve_left hc).lt_size
      exact absurd hc' (Nat.ne_of_lt (Nat.lt_succ_of_lt hlt))
    · simp [hc, hc']

theorem template?_addTemplate :
    (a.addTemplate name attributes).template? c =
      if c = a.size then some (a.size + 1) else a.template? c := by
  rw [template?, element?_addTemplate, template?]
  by_cases hc : c = a.size
  · rw [if_pos (congrArg (· + 1) hc), if_pos hc, hc]
    exact if_pos rfl
  · rw [if_neg hc, if_neg fun h => hc (Nat.succ.inj h)]

end AddTemplate

theorem HoldsNodes.addTemplate (h : a.HoldsNodes c) (name : Name)
    (attributes : List Markup.Attribute) : (a.addTemplate name attributes).HoldsNodes c := by
  have hne : c ≠ a.size + 1 := Nat.ne_of_lt (Nat.lt_succ_of_lt h.lt_size)
  rw [HoldsNodes, isRoot_addTemplate, element?_addTemplate, if_neg hne]
  exact h.imp_left Or.inr

theorem IsWellFormed.addTemplate (h : a.IsWellFormed) (hname : name.isHtml "template" = true)
    (attributes : List Markup.Attribute) : (a.addTemplate name attributes).IsWellFormed where
  linked := (h.linked.add _).add _
  document := (isRoot_addTemplate a name attributes _).2 (Or.inr h.document)
  parent?_root c hc := by
    rw [parent?_addTemplate]
    rcases (isRoot_addTemplate a name attributes c).1 hc with rfl | hc
    · exact parent?_size a
    · exact h.parent?_root c hc
  holdsNodes c p hp := by
    rw [parent?_addTemplate] at hp
    exact (h.holdsNodes c p hp).addTemplate name attributes
  template t name' k ht := by
    rw [element?_addTemplate] at ht
    rw [isRoot_addTemplate]
    split at ht
    · next hk =>
      simp only [Option.some.injEq, Prod.mk.injEq] at ht
      rw [← ht.2]
      exact ⟨hk, Nat.ne_of_gt h.document.lt_size, Or.inl rfl⟩
    · obtain ⟨htk, hk, hkroot⟩ := h.template t name' k ht
      exact ⟨htk, hk, Or.inr hkroot⟩
  isSome_contents t name' contents ht := by
    rw [element?_addTemplate] at ht
    split at ht
    · simp only [Option.some.injEq, Prod.mk.injEq] at ht
      rw [← ht.1, ← ht.2, hname]
      rfl
    · exact h.isSome_contents t name' contents ht

/-- A new template that is put into a sound store leaves it sound. -/
theorem IsSound.putTemplate (h : a.IsSound) (hq : a.HoldsNodes q)
    {attributes : List Markup.Attribute} (hname : name.isHtml "template" = true)
    (hput : Puts (a.addTemplate name attributes) a' (a.size + 1) q) :
    Grows a a' (a.size + 1) q := by
  have hsize : a'.size = a.size + 2 := by rw [hput.size, size_addTemplate]
  have hup : ∀ c, a'.up? c =
      if c = a.size + 1 then some q
      else (a.parent? c).or (if c = a.size then some (a.size + 1) else a.template? c) := by
    intro c
    rw [hput.up?, up?, parent?_addTemplate, template?_addTemplate]
  have hold : ∀ c < a.size, a'.up? c = a.up? c := by
    intro c hc
    rw [hup, if_neg (Nat.ne_of_lt (Nat.lt_succ_of_lt hc)), if_neg (Nat.ne_of_lt hc), up?]
  have hnew : a'.up? (a.size + 1) = some q := by rw [hup, if_pos rfl]
  have hcontents : a'.up? a.size = some (a.size + 1) := by
    rw [hup, if_neg (Nat.ne_of_lt (Nat.lt_succ_self _)), if_pos rfl, parent?_size, Option.none_or]
  have hroot : ¬(a.addTemplate name attributes).IsRoot (a.size + 1) := by
    intro hroot
    rw [IsRoot, content?_addTemplate, if_pos rfl] at hroot
    cases hroot
  have hformed : a'.IsWellFormed :=
    hput.isWellFormed (h.isWellFormed.addTemplate hname attributes) hroot
      (hq.addTemplate name attributes)
  have hang : HangFrom a'.up? Arena.document (· < a'.size) := by
    refine hangFrom_of_up? h hq.lt_size hold fun c hc => ?_
    rw [hsize] at hc
    rcases Nat.lt_succ_iff_lt_or_eq.1 hc with hc | rfl
    · rcases Nat.lt_succ_iff_lt_or_eq.1 hc with hc | rfl
      · exact Or.inl hc
      · exact Or.inr (Or.inr ⟨_, hcontents, hnew⟩)
    · exact Or.inr (Or.inl hnew)
  refine ⟨hformed.isSound hang, fun c hc => ?_, hold, Nat.le_succ _, ?_, hnew⟩
  · have hne : c ≠ a.size + 1 := Nat.ne_of_lt (Nat.lt_succ_of_lt hc)
    rw [hput.content?, content?_addTemplate, if_neg hne, if_neg (Nat.ne_of_lt hc)]
  · rw [hsize]
    exact Nat.lt_succ_self _

end Arena

end SlimTemplate.Html
