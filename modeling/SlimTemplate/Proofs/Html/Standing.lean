import SlimTemplate.Proofs.Html.Edit
import SlimTemplate.Proofs.Html.Sound

/-!
# Sound states of construction

A state is sound when its tree is, when the open elements are cells of the tree none of which lies
below one further inside, and when there is a head to put nodes into. The place of the next node is
then always below a cell that holds nodes, so all edits that only add to the tree keep it sound.

## Main definitions

* `Html.Builder.Place.parent?`: the cell that a node at a place becomes a child of.
* `Html.Builder.IsSound`: sound states.

## Main statements

* `Html.Builder.IsSound.place`: the next node has a place.
* `Html.Builder.IsSound.of_grows`, `Html.Builder.IsSound.insertChar`: additions keep a state
  sound.
-/

namespace SlimTemplate.Html.Builder

/-- The cell that a node at a place becomes a child of. -/
def Place.parent? (a : Arena) : Place → Option CellId
  | .inside p => some p
  | .before sibling => a.parent? sibling

/-- A state whose tree is sound, and whose open elements are cells of it. -/
structure IsSound (b : Builder) : Prop where
  arena : b.arena.IsSound
  opened : ∀ e ∈ b.opened, ∃ contents, b.arena.element? e.id = some (e.name, contents)
  apart : AreApart b.arena.up? (b.opened.map (·.id))
  head : b.arena.HoldsNodes (b.arena.holder b.head.id)
  name_head : b.head.name = ⟨.html, "head"⟩

variable {b b' : Builder} {e : OpenElement} {p x q : CellId}

/-! ## Places -/

namespace IsSound

theorem lt_size (h : b.IsSound) (he : e ∈ b.opened) : e.id < b.arena.size := by
  obtain ⟨contents, helement⟩ := h.opened e he
  exact Arena.lt_size_of_element? helement

theorem not_isRoot (h : b.IsSound) (he : e ∈ b.opened) : ¬b.arena.IsRoot e.id := by
  obtain ⟨contents, helement⟩ := h.opened e he
  intro hroot
  rw [hroot.element?_eq] at helement
  cases helement

theorem holdsNodes (h : b.IsSound) (he : e ∈ b.opened) :
    b.arena.HoldsNodes (b.arena.holder e.id) := by
  obtain ⟨contents, helement⟩ := h.opened e he
  exact h.arena.holdsNodes_holder helement

theorem parent? (h : b.IsSound) (he : e ∈ b.opened) : ∃ p, b.arena.parent? e.id = some p :=
  h.arena.parent?_isSome (h.lt_size he) (h.not_isRoot he)

end IsSound

/-- Whether a cell is where nodes next to or inside of an open element go: the cell that holds
what stands in the element, or its parent. -/
def IsAt (a : Arena) (e : OpenElement) (p : CellId) : Prop :=
  p = a.holder e.id ∨ a.parent? e.id = some p

theorem IsSound.holdsNodes_of_isAt (h : b.IsSound) (he : e ∈ b.opened) (hp : IsAt b.arena e p) :
    b.arena.HoldsNodes p := by
  rcases hp with rfl | hp
  · exact h.holdsNodes he
  · exact h.arena.holdsNodes _ _ hp

/-- A place at an open element is below nothing that the element is not below. -/
theorem IsSound.isUnder_of_isAt (h : b.IsSound) (he : e ∈ b.opened) (hp : IsAt b.arena e p)
    (hx : ¬b.arena.IsRoot x) (hunder : IsUnder b.arena.up? p x) :
    IsUnder b.arena.up? e.id x := by
  obtain ⟨contents, helement⟩ := h.opened e he
  rcases hp with rfl | hp
  · cases contents with
    | none => rwa [Arena.holder_of_element? helement] at hunder
    | some k =>
      rw [Arena.holder_of_template helement] at hunder
      obtain ⟨hk, -, hroot⟩ := h.arena.template _ _ _ helement
      refine hunder.of_up_of_ne (fun hkx => hx (hkx ▸ hroot)) ?_
      rw [hk] at helement ⊢
      rw [Arena.up?, h.arena.parent?_root k hroot, Option.none_or,
        Arena.template?_of_element? helement]
  · exact IsUnder.step (Arena.up?_of_parent? hp) hunder

theorem rootId_isAt (rest : List OpenElement) (hopened : b.opened = rest ++ [e]) :
    IsAt b.arena e b.rootId := by
  rw [rootId, hopened, List.getLast?_concat]
  exact .inl rfl

/-- Misplaced content goes next to or into one of the elements that its place is looked for in. -/
theorem IsSound.fosterPlace (h : b.IsSound) (before opened : List OpenElement)
    (hopened : b.opened = before ++ opened) (hne : opened ≠ []) :
    ∃ e ∈ opened, ∃ p, (b.fosterPlace opened).parent? b.arena = some p ∧ IsAt b.arena e p := by
  induction opened generalizing before with
  | nil => exact absurd rfl hne
  | cons e rest ih =>
    have he : e ∈ b.opened := by
      rw [hopened]
      exact List.mem_append_right _ List.mem_cons_self
    unfold Builder.fosterPlace
    split
    · exact ⟨e, List.mem_cons_self, _, rfl, .inl rfl⟩
    · split
      · obtain ⟨p, hp⟩ := h.parent? he
        rw [hp]
        exact ⟨e, List.mem_cons_self, p, hp, .inr hp⟩
      · cases rest with
        | nil =>
          exact ⟨e, List.mem_cons_self, _, rfl, rootId_isAt before hopened⟩
        | cons outer more =>
          obtain ⟨t, ht, p, hp⟩ := ih (before ++ [e])
            (by rw [hopened, List.append_assoc]; rfl) (List.cons_ne_nil _ _)
          exact ⟨t, List.mem_cons_of_mem _ ht, p, hp⟩

/-- The next node goes into the document, or next to or into an open element. -/
theorem IsSound.place_isAt (h : b.IsSound) :
    ∃ p, b.place.parent? b.arena = some p ∧
      (p = Arena.document ∨ ∃ e ∈ b.opened, IsAt b.arena e p) := by
  cases hopened : b.opened with
  | nil =>
    rw [Builder.place, hopened]
    exact ⟨_, rfl, .inl rfl⟩
  | cons e rest =>
    have hplace : b.place = b.placeIn e := by rw [Builder.place, hopened]
    rw [hplace, placeIn, ← hopened]
    split
    · obtain ⟨t, ht, p, hp, hat⟩ := h.fosterPlace [] b.opened rfl
        (by rw [hopened]; exact List.cons_ne_nil _ _)
      exact ⟨p, hp, .inr ⟨t, ht, hat⟩⟩
    · refine ⟨_, rfl, .inr ⟨e, ?_, .inl rfl⟩⟩
      rw [hopened]
      exact List.mem_cons_self

theorem IsSound.holdsNodes_of_place (h : b.IsSound)
    (hp : p = Arena.document ∨ ∃ e ∈ b.opened, IsAt b.arena e p) : b.arena.HoldsNodes p := by
  rcases hp with rfl | ⟨e, he, hat⟩
  · exact .inl h.arena.document
  · exact h.holdsNodes_of_isAt he hat

/-- The next node has a place below a cell that holds nodes. -/
theorem IsSound.place (h : b.IsSound) :
    ∃ p, b.place.parent? b.arena = some p ∧ b.arena.HoldsNodes p := by
  obtain ⟨p, hp, hat⟩ := h.place_isAt
  exact ⟨p, hp, h.holdsNodes_of_place hat⟩

theorem place_sibling_lt {a : Arena} {place : Place} {sibling : CellId}
    (hplace : place = .before sibling) (hp : place.parent? a = some p) : sibling < a.size := by
  rw [hplace] at hp
  exact Arena.lt_size_of_parent? hp

/-- A new cell that is put at a place becomes a child of the place's cell. -/
theorem puts_putAt {a : Arena} {place : Place} (hp : place.parent? a = some p) (hlt : p < a.size)
    {c : CellId} (hc : a.size ≤ c) (hparent : ∀ d, b.arena.parent? d = a.parent? d)
    (hsize : c < b.arena.size) : Arena.Puts b.arena (b.putAt c place).arena c p := by
  have hle : p < b.arena.size := Nat.lt_trans hlt (Nat.lt_of_le_of_lt hc hsize)
  cases hplace : place with
  | inside parent =>
    rw [hplace, Place.parent?, Option.some.injEq] at hp
    rw [hp]
    exact Arena.puts_append hle hsize
  | before sibling =>
    have hsibling := place_sibling_lt hplace hp
    rw [hplace, Place.parent?, ← hparent] at hp
    exact Arena.puts_insertBefore (Nat.ne_of_lt (Nat.lt_of_lt_of_le hsibling hc)) hp hsize

/-! ## Additions -/

theorem lt_size_of_holdsNodes_holder {a : Arena} {id : CellId}
    (hholds : a.HoldsNodes (a.holder id)) : id < a.size := by
  cases helement : a.element? id with
  | some _ => exact Arena.lt_size_of_element? helement
  | none =>
    rw [Arena.holder_eq, helement] at hholds
    exact hholds.lt_size

/-- The head can hold nodes in a larger store as well. -/
theorem holdsNodes_of_content? {a a' : Arena} {id : CellId}
    (hcontent : ∀ c < a.size, a'.content? c = a.content? c)
    (hholds : a.HoldsNodes (a.holder id)) : a'.HoldsNodes (a'.holder id) := by
  have hid : id < a.size := lt_size_of_holdsNodes_holder hholds
  have hholder : a'.holder id = a.holder id := by
    rw [Arena.holder_eq, Arena.element?_congr (hcontent _ hid), Arena.holder_eq]
  rw [hholder]
  exact (Arena.holdsNodes_congr (hcontent _ hholds.lt_size)).2 hholds

/-- A state stays sound when its tree does, what was there stays what it was, and the open elements
are apart. -/
theorem IsSound.of_content? (h : b.IsSound) (harena : b'.arena.IsSound)
    (hcontent : ∀ c < b.arena.size, b'.arena.content? c = b.arena.content? c)
    (hopened : ∀ e ∈ b'.opened, e ∈ b.opened ∨
      ∃ contents, b'.arena.element? e.id = some (e.name, contents))
    (hapart : AreApart b'.arena.up? (b'.opened.map (·.id))) (hhead : b'.head = b.head) :
    b'.IsSound := by
  refine ⟨harena, fun e he => ?_, hapart, ?_, hhead ▸ h.name_head⟩
  · rcases hopened e he with hold | hnew
    · rw [Arena.element?_congr (hcontent _ (h.lt_size hold))]
      exact h.opened e hold
    · exact hnew
  · rw [hhead]
    exact holdsNodes_of_content? hcontent h.head

/-- A state stays sound when new cells are put into its tree. The new element may be opened. -/
theorem IsSound.of_grows (h : b.IsSound) (hgrows : Arena.Grows b.arena b'.arena x q)
    (hhead : b'.head = b.head)
    (hopened : b'.opened = b.opened ∨ ∃ e contents, b'.opened = e :: b.opened ∧ e.id = x ∧
      b'.arena.element? x = some (e.name, contents)) : b'.IsSound := by
  have hlt : ∀ c ∈ b.opened.map (·.id), c < b.arena.size := by
    intro c hc
    obtain ⟨e, he, rfl⟩ := List.mem_map.1 hc
    exact h.lt_size he
  have hapart : AreApart b'.arena.up? (b.opened.map (·.id)) := by
    refine h.apart.imp_of_mem fun _ ho hapart => ?_
    rwa [hgrows.isUnder_iff h.arena (hlt _ ho)]
  rcases hopened with hopened | ⟨e, contents, hopened, rfl, helement⟩
  · exact h.of_content? hgrows.isSound hgrows.content? (fun e he => .inl (hopened ▸ he))
      (hopened ▸ hapart) hhead
  · refine h.of_content? hgrows.isSound hgrows.content? (fun e' he' => ?_) ?_ hhead
    · rw [hopened] at he'
      rcases List.mem_cons.1 he' with rfl | he'
      · exact .inr ⟨contents, helement⟩
      · exact .inl he'
    · rw [hopened]
      refine List.pairwise_cons.2 ⟨?_, hapart⟩
      intro o ho hunder
      rw [hgrows.isUnder_iff h.arena (hlt o ho)] at hunder
      have hx := h.arena.lt_size_of_isUnder hunder (hlt o ho)
      exact Nat.lt_irrefl _ (Nat.lt_of_lt_of_le hx hgrows.size_le)

/-- A state stays sound when only texts and attributes change. -/
theorem IsSound.of_sameShape (h : b.IsSound) (hshape : Arena.SameShape b.arena b'.arena)
    (hopened : b'.opened = b.opened) (hhead : b'.head = b.head) : b'.IsSound := by
  have hholder : ∀ c, b'.arena.holder c = b.arena.holder c := by
    intro c
    rw [Arena.holder_eq, hshape.element?, Arena.holder_eq]
  refine ⟨hshape.isSound h.arena, ?_, ?_, ?_, hhead ▸ h.name_head⟩
  · intro e he
    rw [hshape.element?]
    exact h.opened e (hopened ▸ he)
  · have hup : b'.arena.up? = b.arena.up? := funext hshape.up?
    rw [hopened, hup]
    exact h.apart
  · rw [hhead, hholder, hshape.holdsNodes]
    exact h.head

theorem opened_putAt (b : Builder) (c : CellId) (place : Place) :
    (b.putAt c place).opened = b.opened := by
  cases place <;> rfl

theorem head_putAt (b : Builder) (c : CellId) (place : Place) :
    (b.putAt c place).head = b.head := by
  cases place <;> rfl

theorem opened_create (b : Builder) (name : Name) (attributes : List Markup.Attribute) :
    (b.create name attributes).2.opened = b.opened := by
  rw [create]
  split <;> rfl

theorem head_create (b : Builder) (name : Name) (attributes : List Markup.Attribute) :
    (b.create name attributes).2.head = b.head := by
  rw [create]
  split <;> rfl

theorem name_create (b : Builder) (name : Name) (attributes : List Markup.Attribute) :
    (b.create name attributes).1.name = name := by
  rw [create]
  split <;> rfl

theorem create_of_template {name : Name} (hname : name.isHtml "template" = true)
    (b : Builder) (attributes : List Markup.Attribute) :
    (b.create name attributes).1.id = b.arena.size + 1 ∧
      (b.create name attributes).2.arena = b.arena.addTemplate name attributes := by
  rw [create, if_pos hname]
  exact ⟨Arena.size_add _ _, rfl⟩

theorem create_of_not_template {name : Name} (hname : name.isHtml "template" = false)
    (b : Builder) (attributes : List Markup.Attribute) :
    (b.create name attributes).1.id = b.arena.size ∧
      (b.create name attributes).2.arena = (b.arena.add (.element name attributes none)).2 := by
  rw [create, if_neg (by rw [hname]; exact Bool.false_ne_true)]
  exact ⟨rfl, rfl⟩

/-- An element that is created and put somewhere. -/
theorem grows_create (h : b.arena.IsSound) (hq : b.arena.HoldsNodes q) (name : Name)
    (attributes : List Markup.Attribute)
    (hput : Arena.Puts (b.create name attributes).2.arena b'.arena
      (b.create name attributes).1.id q) :
    Arena.Grows b.arena b'.arena (b.create name attributes).1.id q ∧
      ∃ contents, b'.arena.element? (b.create name attributes).1.id = some (name, contents) := by
  rw [hput.element?]
  cases hname : name.isHtml "template" with
  | true =>
    obtain ⟨hid, harena⟩ := create_of_template hname b attributes
    rw [hid, harena] at hput ⊢
    refine ⟨h.putTemplate hq hname hput, some b.arena.size, ?_⟩
    rw [Arena.element?_addTemplate, if_pos rfl]
  | false =>
    obtain ⟨hid, harena⟩ := create_of_not_template hname b attributes
    rw [hid, harena] at hput ⊢
    have hplain : Content.IsPlain (.element name attributes none) := ⟨rfl, hname⟩
    refine ⟨h.put hq hplain hput, none, ?_⟩
    rw [Arena.element?_add, if_pos rfl]
    rfl

theorem size_create (b : Builder) (name : Name) (attributes : List Markup.Attribute) :
    b.arena.size ≤ (b.create name attributes).1.id ∧
      (b.create name attributes).1.id < (b.create name attributes).2.arena.size ∧
      ∀ c, (b.create name attributes).2.arena.parent? c = b.arena.parent? c := by
  cases hname : name.isHtml "template" with
  | true =>
    obtain ⟨hid, harena⟩ := create_of_template hname b attributes
    rw [hid, harena, Arena.size_addTemplate]
    exact ⟨Nat.le_succ _, Nat.lt_succ_self _, Arena.parent?_addTemplate _ _ _⟩
  | false =>
    obtain ⟨hid, harena⟩ := create_of_not_template hname b attributes
    rw [hid, harena, Arena.size_add]
    exact ⟨Nat.le_refl _, Nat.lt_succ_self _, Arena.parent?_add _ _⟩

/-! ### Characters -/

/-- A character extends a text that is there, or becomes a new text. -/
inductive AddsChar (a a' : Arena) (p : CellId) : Prop
  | extends (h : Arena.SameShape a a')
  | adds (c : Char) (h : Arena.Puts (a.add (.text [c])).2 a' a.size p)

theorem appendChar_adds {a : Arena} (hp : p < a.size) (c : Char) :
    AddsChar a (a.appendChar p c) p := by
  have hnew : AddsChar a ((a.add (.text [c])).2.append p a.size) p := by
    refine .adds c (Arena.puts_append ?_ ?_)
    · rw [Arena.size_add]
      exact Nat.lt_succ_of_lt hp
    · rw [Arena.size_add]
      exact Nat.lt_succ_self _
  rw [Arena.appendChar]
  split
  · split
    · exact .extends (Arena.sameShape_extendText a _ c)
    · exact hnew
  · exact hnew

theorem insertCharBefore_adds {a : Arena} {sibling : CellId} (hp : a.parent? sibling = some p)
    (c : Char) : AddsChar a (a.insertCharBefore sibling c) p := by
  have hnew : AddsChar a ((a.add (.text [c])).2.insertBefore sibling a.size) p := by
    refine .adds c (Arena.puts_insertBefore ?_ ?_ ?_)
    · exact Nat.ne_of_lt (Arena.lt_size_of_parent? hp)
    · rw [Arena.parent?_add, hp]
    · rw [Arena.size_add]
      exact Nat.lt_succ_self _
  simp only [Arena.insertCharBefore, hp]
  split
  · split
    · exact .extends (Arena.sameShape_extendText a _ c)
    · exact hnew
  · exact hnew

theorem IsSound.of_addsChar (h : b.IsSound) (hadds : AddsChar b.arena b'.arena p)
    (hp : b.arena.HoldsNodes p) (hopened : b'.opened = b.opened) (hhead : b'.head = b.head) :
    b'.IsSound := by
  cases hadds with
  | «extends» hshape => exact h.of_sameShape hshape hopened hhead
  | adds c hput =>
    have hplain : Content.IsPlain (.text [c]) := trivial
    exact h.of_grows (h.arena.put hp hplain hput) hhead (.inl hopened)

theorem insertChar_adds {place : Place} (hplace : b.place = place)
    (hp : place.parent? b.arena = some p) (hlt : p < b.arena.size) (c : Char) :
    AddsChar b.arena (b.insertChar c).arena p ∧ (b.insertChar c).opened = b.opened ∧
      (b.insertChar c).head = b.head := by
  rw [Builder.insertChar, hplace]
  cases place with
  | inside parent =>
    rw [Place.parent?, Option.some.injEq] at hp
    rw [hp]
    exact ⟨appendChar_adds hlt c, rfl, rfl⟩
  | before sibling => exact ⟨insertCharBefore_adds hp c, rfl, rfl⟩

theorem IsSound.insertChar (h : b.IsSound) (c : Char) : (b.insertChar c).IsSound := by
  obtain ⟨p, hp, hholds⟩ := h.place
  obtain ⟨hadds, hopened, hhead⟩ := insertChar_adds rfl hp hholds.lt_size c
  exact h.of_addsChar hadds hholds hopened hhead

theorem IsSound.steer (h : b.IsSound) (harena : b'.arena = b.arena)
    (hopened : b'.opened.Sublist b.opened)
    (hhead : b'.head = b.head ∨ b'.head ∈ b.opened ∧ b'.head.name = ⟨.html, "head"⟩) :
    b'.IsSound := by
  refine ⟨harena ▸ h.arena, ?_, ?_, ?_, ?_⟩
  · intro e he
    rw [harena]
    exact h.opened e (hopened.subset he)
  · rw [harena]
    exact h.apart.sublist (hopened.map _)
  · rw [harena]
    rcases hhead with hhead | ⟨hhead, -⟩
    · rw [hhead]
      exact h.head
    · exact h.holdsNodes hhead
  · rcases hhead with hhead | ⟨-, hname⟩
    · rw [hhead]
      exact h.name_head
    · exact hname

theorem place_push_head (h : b.IsSound) :
    (b.push b.head).place = .inside (b.arena.holder b.head.id) := by
  have hpart : b.head.name.isHtmlIn isTablePart = false := by
    rw [h.name_head]
    rfl
  show (b.push b.head).placeIn b.head = _
  rw [placeIn, hpart, Bool.and_false]
  rfl

theorem create_push (b : Builder) (e : OpenElement) (name : Name)
    (attributes : List Markup.Attribute) :
    ((b.push e).create name attributes).1 = (b.create name attributes).1 ∧
      ((b.push e).create name attributes).2.arena = (b.create name attributes).2.arena := by
  rw [create, create]
  split <;> exact ⟨rfl, rfl⟩

/-- An element is put into the head while the head itself is open for a moment. -/
theorem IsSound.puts_intoHead (h : b.IsSound) (name : Name) (attributes : List Markup.Attribute) :
    Arena.Puts (b.create name attributes).2.arena
      ((b.push b.head).insertClosed name attributes).2.arena (b.create name attributes).1.id
      (b.arena.holder b.head.id) := by
  obtain ⟨hid, hlt, hparent⟩ := size_create (b.push b.head) name attributes
  have hp : (b.push b.head).place.parent? b.arena = some (b.arena.holder b.head.id) := by
    rw [place_push_head h]
    rfl
  obtain ⟨he, harena⟩ := create_push b b.head name attributes
  rw [← he, ← harena]
  exact puts_putAt hp h.head.lt_size hid hparent hlt

end SlimTemplate.Html.Builder
