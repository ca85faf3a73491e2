import SlimTemplate.Proofs.Html.Course
import SlimTemplate.Proofs.Html.Split

/-!
# What construction keeps

While a tree is built within a scope that drops no body, the tree stays sound, nodes only go into
elements that the scope allows to be opened, and no comment is lost: each comment that is put in is
a cell from then on, and nothing else becomes one.

## Main definitions

* `Html.Scope.Fills`, `Html.Builder.IsFilled`: only such elements hold something.
* `Html.Arena.comments`: the comments of a store in the order of their creation.
* `Html.Builder.Keeps`: what a change of the state keeps.

## Main statements

* `Html.Edit.keeps`, `Html.Builder.Notes.keeps`: edits keep all this, and so do comments that are
  put in.
* `Html.Course.keeps`: a course adds its comments and no others.
-/

namespace SlimTemplate.Html

open Builder

/-- The elements that may hold something in a tree that is built within a scope. -/
inductive Scope.Fills (scope : Scope) : Name → Prop
  | html {name : String} (h : isEmptyElement name = false) : Fills scope ⟨.html, name⟩
  | foreign {name : Name} (h : scope.opensForeign name) (hin : scope.entersForeign) :
      Fills scope name

variable {scope : Scope}

/-- An element that may be opened may hold something. -/
theorem Scope.MayOpen.fills {b : Builder} {name : Name} (h : scope.MayOpen b name)
    (hopened : ∀ e ∈ b.opened, scope.Fills e.name) : scope.Fills name := by
  cases h with
  | html hempty => exact .html hempty
  | foreign hforeign hin =>
    rcases hin with hin | ⟨e, he, hspace⟩
    · exact .foreign hforeign hin
    · have hfills := hopened e he
      generalize e.name = outer at hfills hspace
      cases hfills with
      | html => exact absurd rfl hspace
      | foreign _ hin => exact .foreign hforeign hin

theorem Name.IsFormatting.fills {name : Name} (h : name.IsFormatting) : scope.Fills name := by
  obtain ⟨space, text⟩ := name
  obtain ⟨rfl, htext⟩ := h
  exact .html (isEmptyElement_of_isFormatting htext)

namespace Arena

variable {a a' a'' : Arena} {c d p q x y : CellId} {content : Content} {name : Name}
  {attributes : List Markup.Attribute}

/-- Whether something may be put into a cell. -/
def MayFill (scope : Scope) (a : Arena) (p : CellId) : Prop :=
  ∀ name contents, a.element? p = some (name, contents) → scope.Fills name

/-- Whether only cells that may hold something have children. -/
def IsFilled (scope : Scope) (a : Arena) : Prop :=
  ∀ c p, a.parent? c = some p → a.MayFill scope p

theorem IsRoot.mayFill (h : a.IsRoot p) : a.MayFill scope p := by
  intro name contents helement
  rw [h.element?_eq] at helement
  cases helement

theorem MayFill.of_element? (h : a.MayFill scope p) (heq : a'.element? p = a.element? p) :
    a'.MayFill scope p := by
  rwa [MayFill, heq]

/-- The document alone is a root without parent and without children. -/
theorem cell_empty {cell : Cell} (h : Arena.empty.cells[c]? = some cell) :
    c = document ∧ cell = ⟨.root, none, []⟩ := by
  obtain ⟨hlt, hget⟩ := Array.getElem?_eq_some_iff.1 h
  obtain rfl : c = 0 := Nat.lt_one_iff.1 hlt
  exact ⟨rfl, hget.symm⟩

theorem parent?_empty (c : CellId) : Arena.empty.parent? c = none := by
  rw [parent?]
  cases h : Arena.empty.cells[c]? with
  | none => rfl
  | some cell => rw [(cell_empty h).2, Option.bind_some]

theorem reversedChildren_empty (c : CellId) : Arena.empty.reversedChildren c = [] := by
  rw [reversedChildren]
  cases h : Arena.empty.cells[c]? with
  | none => rfl
  | some cell => rw [(cell_empty h).2, Option.map_some, Option.getD_some]

theorem element?_empty (c : CellId) : Arena.empty.element? c = none := by
  rw [element?, content?]
  cases h : Arena.empty.cells[c]? with
  | none => rfl
  | some cell =>
    rw [(cell_empty h).2]
    rfl

theorem isSound_empty : Arena.empty.IsSound where
  linked := ⟨fun p c => by simp [reversedChildren_empty, parent?_empty],
    fun p => by simp [reversedChildren_empty]⟩
  document := rfl
  parent?_root c _ := parent?_empty c
  holdsNodes c p h := by simp [parent?_empty] at h
  template t name k h := by simp [element?_empty] at h
  isSome_contents t name contents h := by simp [element?_empty] at h
  hang := by
    refine ⟨?_, fun c hc => ?_⟩
    · rw [up?, parent?_empty, template?, element?_empty]
      rfl
    · obtain rfl : c = document := Nat.lt_one_iff.1 hc
      exact .self _

theorem isFilled_empty : Arena.empty.IsFilled scope := by
  intro c p hparent
  rw [parent?_empty] at hparent
  cases hparent

namespace IsFilled

theorem of_sameShape (h : a.IsFilled scope) (hshape : SameShape a a') : a'.IsFilled scope := by
  intro c p hparent
  rw [hshape.parent?] at hparent
  exact (h c p hparent).of_element? (hshape.element? p)

theorem puts (h : a.IsFilled scope) (hput : Puts a a' c p) (hp : a.MayFill scope p) :
    a'.IsFilled scope := by
  intro d q hparent
  rw [hput.parent?] at hparent
  refine MayFill.of_element? ?_ (hput.element? q)
  split at hparent
  · exact Option.some.inj hparent ▸ hp
  · exact h d q hparent

theorem add (h : a.IsFilled scope) (hlinked : a.IsLinked) (content : Content) :
    (a.add content).2.IsFilled scope := by
  intro d q hparent
  rw [parent?_add] at hparent
  refine (h d q hparent).of_element? ?_
  rw [element?_add, if_neg (Nat.ne_of_lt (hlinked.lt_size hparent))]

theorem takeOver (h : a.IsFilled scope)
    (htakes : TakesOver a a' y (.element name attributes none)) (hy : a.MayFill scope y)
    (hname : scope.Fills name) : a'.IsFilled scope := by
  have hnew : a'.element? a.size = some (name, none) := by
    rw [Arena.element?, htakes.content?, if_pos rfl]
    rfl
  have hold : ∀ q, q ≠ a.size → a'.element? q = a.element? q := by
    intro q hq
    rw [Arena.element?, htakes.content?, if_neg hq, Arena.element?]
  intro d q hparent
  by_cases hq : q = a.size
  · rw [hq]
    intro name' contents helement
    rw [hnew, Option.some.injEq, Prod.mk.injEq] at helement
    exact helement.1 ▸ hname
  · refine MayFill.of_element? ?_ (hold q hq)
    rw [htakes.parent?] at hparent
    split at hparent
    · exact Option.some.inj hparent ▸ hy
    · split at hparent
      · exact absurd (Option.some.inj hparent).symm hq
      · exact h d q hparent

end IsFilled

theorem MayFill.add (h : a.MayFill scope p) (hlt : p < a.size) (content : Content) :
    (a.add content).2.MayFill scope p := by
  refine h.of_element? ?_
  rw [element?_add, if_neg (Nat.ne_of_lt hlt)]

/-! ## Comments -/

/-- The comments of a store in the order of their creation. -/
def comments (a : Arena) : List Text :=
  (List.range a.size).filterMap a.comment?

theorem comment?_of_content? (h : a'.content? c = a.content? c) : a'.comment? c = a.comment? c := by
  rw [comment?, h, comment?]

theorem comments_congr (hsize : a'.size = a.size) (h : ∀ c, a'.comment? c = a.comment? c) :
    a'.comments = a.comments := by
  rw [comments, comments, hsize]
  exact congrArg (List.filterMap · _) (funext h)

theorem comments_add (a : Arena) (content : Content) :
    (a.add content).2.comments = a.comments ++ content.comment?.toList := by
  have hold : (List.range a.size).filterMap (a.add content).2.comment? = a.comments := by
    refine List.filterMap_congr fun c hc => comment?_of_content? ?_
    rw [content?_add, if_neg (Nat.ne_of_lt (List.mem_range.1 hc))]
  have hnew : (a.add content).2.comment? a.size = content.comment? := by
    rw [comment?, content?_add, if_pos rfl]
    rfl
  rw [comments, size_add, List.range_succ, List.filterMap_append, hold, List.filterMap_cons, hnew]
  cases content.comment? <;> rfl

theorem Puts.comments (h : Puts a a' c p) : a'.comments = a.comments :=
  comments_congr h.size fun d => comment?_of_content? (h.content? d)

theorem SameShape.comments (h : SameShape a a') : a'.comments = a.comments :=
  comments_congr h.size h.comment?

theorem TakesOver.comments (h : TakesOver a a' y content) :
    a'.comments = a.comments ++ content.comment?.toList := by
  rw [← comments_add]
  refine comments_congr ?_ fun c => comment?_of_content? ?_
  · rw [h.size, size_add]
  · rw [h.content?, content?_add]

end Arena

namespace Builder

variable {b b' b'' : Builder} {e : OpenElement} {p x : CellId} {place : Place} {name : Name}
  {attributes : List Markup.Attribute}

/-- Whether only elements that may hold something do so or are open, and the head is one. -/
structure IsFilled (scope : Scope) (b : Builder) : Prop where
  arena : b.arena.IsFilled scope
  opened : ∀ e ∈ b.opened, scope.Fills e.name
  head : b.arena.MayFill scope (b.arena.holder b.head.id)

/-- Something may be put next to or into an open element. -/
theorem IsFilled.mayFill_of_isAt (h : b.IsFilled scope) (hb : b.IsSound) (he : e ∈ b.opened)
    (hat : IsAt b.arena e p) : b.arena.MayFill scope p := by
  rcases hat with rfl | hparent
  · obtain ⟨contents, helement⟩ := hb.opened e he
    cases contents with
    | none =>
      rw [Arena.holder_of_element? helement]
      intro name contents hname
      rw [helement, Option.some.injEq, Prod.mk.injEq] at hname
      exact hname.1 ▸ h.opened e he
    | some k =>
      rw [Arena.holder_of_template helement]
      exact (hb.arena.template _ _ _ helement).2.2.mayFill
  · exact h.arena e.id p hparent

theorem IsFilled.mayFill (h : b.IsFilled scope) (hb : b.IsSound)
    (hp : p = Arena.document ∨ ∃ e ∈ b.opened, IsAt b.arena e p) : b.arena.MayFill scope p := by
  rcases hp with rfl | ⟨e, he, hat⟩
  · exact hb.arena.document.mayFill
  · exact h.mayFill_of_isAt hb he hat

theorem IsFilled.of_element? (hf : b.IsFilled scope) (hb : b.IsSound)
    (harena : b'.arena.IsFilled scope)
    (hopened : ∀ e ∈ b'.opened, e ∈ b.opened ∨ scope.Fills e.name) (hhead : b'.head = b.head)
    (helement : ∀ c < b.arena.size, b'.arena.element? c = b.arena.element? c) :
    b'.IsFilled scope := by
  refine ⟨harena, fun e he => (hopened e he).elim (hf.opened e) id, ?_⟩
  have hholds := hb.head
  have hid : b.head.id < b.arena.size := lt_size_of_holdsNodes_holder hholds
  have hholder : b'.arena.holder b.head.id = b.arena.holder b.head.id := by
    rw [Arena.holder_eq, helement _ hid, Arena.holder_eq]
  rw [hhead, hholder]
  exact hf.head.of_element? (helement _ hholds.lt_size)

/-- What a change of the state keeps: it stays sound, only elements that may hold something do, and
the comments are those that were there, followed by the given ones. -/
structure Keeps (scope : Scope) (b : Builder) (datas : List Text) (b' : Builder) : Prop where
  isSound : b'.IsSound
  isFilled : b'.IsFilled scope
  comments : b'.arena.comments = b.arena.comments ++ datas

theorem Keeps.trans {datas more : List Text} (h : Keeps scope b datas b')
    (h' : Keeps scope b' more b'') : Keeps scope b (datas ++ more) b'' :=
  ⟨h'.isSound, h'.isFilled, by rw [h'.comments, h.comments, List.append_assoc]⟩

theorem Keeps.steer (hb : b.IsSound) (hf : b.IsFilled scope) (harena : b'.arena = b.arena)
    (hopened : b'.opened.Sublist b.opened)
    (hhead : b'.head = b.head ∨ b'.head ∈ b.opened ∧ b'.head.name = ⟨.html, "head"⟩) :
    Keeps scope b [] b' := by
  refine ⟨hb.steer harena hopened hhead, ⟨harena ▸ hf.arena, ?_, ?_⟩, ?_⟩
  · exact fun e he => hf.opened e (hopened.subset he)
  · rw [harena]
    rcases hhead with hhead | ⟨hhead, -⟩
    · exact hhead ▸ hf.head
    · exact hf.mayFill_of_isAt hb hhead (.inl rfl)
  · rw [harena, List.append_nil]

/-! ## Moves -/

theorem Shift.keeps (h : Shift b b') (hb : b.IsSound) (hf : b.IsFilled scope) :
    Keeps scope b [] b' := by
  have hsound := h.isSound hb
  have hplace : ∀ {outer : List OpenElement} {dest : Place} {p : CellId},
      (∀ t ∈ outer, t ∈ b.opened) → b.StandsAt outer dest p → b.arena.MayFill scope p :=
    fun houter hat => hf.mayFill hb (hat.isAt.imp_right fun ⟨t, ht, hp⟩ => ⟨t, houter t ht, hp⟩)
  cases h with
  | close hsub => exact .steer hb hf rfl hsub (.inl rfl)
  | move hopened hat hne =>
    rename_i inner outer e dest p
    have houter : ∀ t ∈ outer, t ∈ b.opened := by
      intro t ht
      simp [hopened, ht]
    have hput := (hb.hasPlace houter hat hne).puts (hb.lt_size (e := e) (by simp [hopened]))
    refine ⟨hsound, ?_, hput.comments.trans (List.append_nil _).symm⟩
    exact hf.of_element? hb (hf.arena.puts hput (hplace houter hat)) (fun _ => .inl) rfl
      fun c _ => hput.element? c
  | insert name attributes holdsHtml hopened hat hname =>
    rename_i inner outer dest p
    have houter := mem_opened_of_append hopened
    have hput := hb.puts_new houter hat (.element name attributes none)
    have hlt := (hb.holdsNodes_of_standsAt houter hat).lt_size
    refine ⟨hsound, hf.of_element? hb ?_ (fun e he => ?_) (withTree_head _ _) fun c hc => ?_,
      hput.comments.trans (Arena.comments_add _ _)⟩
    · exact (hf.arena.add hb.arena.linked _).puts hput ((hplace houter hat).add hlt _)
    · rcases List.mem_append.1 he with he | he
      · exact .inl (hopened ▸ List.mem_append_left _ he)
      · rcases List.mem_cons.1 he with rfl | he
        · exact .inr hname.fills
        · exact .inl (houter e he)
    · exact (hput.element? c).trans ((Arena.element?_add _ _ c).trans
        (if_neg (Nat.ne_of_lt hc)))
  | takeOver name attributes holdsHtml hopened hname hblock =>
    rename_i inner outer e
    have he : e ∈ b.opened := mem_opened_of_append hopened e List.mem_cons_self
    have htakes := hb.arena.linked.takesOver (hb.lt_size he) (.element name attributes none)
    have hfill : b.arena.MayFill scope e.id := by
      obtain ⟨contents, helement⟩ := hb.opened e he
      intro name contents hname
      rw [helement, Option.some.injEq, Prod.mk.injEq] at hname
      exact hname.1 ▸ hf.opened e he
    refine ⟨hsound, hf.of_element? hb (hf.arena.takeOver htakes hfill hname.fills)
      (fun t ht => ?_) (withTree_head _ _) fun c hc => Arena.element?_congr ?_, htakes.comments⟩
    · rcases List.mem_append.1 ht with ht | ht
      · exact .inl (hopened ▸ List.mem_append_left _ ht)
      · rcases List.mem_cons.1 ht with rfl | ht
        · exact .inr hname.fills
        · exact .inl (mem_opened_of_append hopened t ht)
    · exact (htakes.content? c).trans (if_neg (Nat.ne_of_lt hc))

theorem Keeps.shifts (hb : b.IsSound) (hf : b.IsFilled scope)
    (h : Relation.ReflTransGen Shift b b') : Keeps scope b [] b' := by
  induction h with
  | refl => exact .steer hb hf rfl (.refl _) (.inl rfl)
  | tail _ hshift ih => exact ih.trans (hshift.keeps ih.isSound ih.isFilled)

/-! ## New cells -/

/-- A new cell that is put somewhere. -/
theorem Keeps.of_puts (hb : b.IsSound) (hf : b.IsFilled scope) (content : Content)
    (hplain : content.IsPlain) (hp : b.arena.HoldsNodes p) (hfill : b.arena.MayFill scope p)
    (hput : Arena.Puts (b.arena.add content).2 b'.arena b.arena.size p)
    (hopened : b'.opened = b.opened) (hhead : b'.head = b.head) :
    Keeps scope b content.comment?.toList b' := by
  have hgrows := hb.arena.put hp hplain hput
  refine ⟨hb.of_grows hgrows hhead (.inl hopened), ?_,
    hput.comments.trans (Arena.comments_add _ _)⟩
  refine hf.of_element? hb ?_ (fun e he => .inl (hopened ▸ he)) hhead fun c hc => ?_
  · exact (hf.arena.add hb.arena.linked _).puts hput (hfill.add hp.lt_size _)
  · exact Arena.element?_congr (hgrows.content? c hc)

theorem Keeps.insertChar (hb : b.IsSound) (hf : b.IsFilled scope) (c : Char) :
    Keeps scope b [] (b.insertChar c) := by
  obtain ⟨p, hp, hat⟩ := hb.place_isAt
  have hholds := hb.holdsNodes_of_place hat
  obtain ⟨hadds, hopened, hhead⟩ := insertChar_adds rfl hp hholds.lt_size c
  cases hadds with
  | «extends» hshape =>
    refine ⟨hb.insertChar c, ?_, hshape.comments.trans (List.append_nil _).symm⟩
    exact hf.of_element? hb (hf.arena.of_sameShape hshape) (fun e he => .inl (hopened ▸ he)) hhead
      fun c _ => hshape.element? c
  | adds c hput =>
    exact .of_puts hb hf (.text [c]) trivial hholds (hf.mayFill hb hat) hput hopened hhead

/-- The store with a new element that has not been put anywhere. -/
theorem create_keeps (hb : b.IsSound) (hf : b.IsFilled scope) (name : Name)
    (attributes : List Markup.Attribute) :
    (b.create name attributes).2.arena.IsFilled scope ∧
      (b.create name attributes).2.arena.comments = b.arena.comments ∧
      ∀ p < b.arena.size, b.arena.MayFill scope p →
        (b.create name attributes).2.arena.MayFill scope p := by
  have hlinked := hb.arena.linked
  cases hname : name.isHtml "template" with
  | true =>
    obtain ⟨-, harena⟩ := create_of_template hname b attributes
    rw [harena, Arena.addTemplate]
    refine ⟨(hf.arena.add hlinked _).add (hlinked.add _) _, ?_, fun p hlt hp => ?_⟩
    · rw [Arena.comments_add, Arena.comments_add]
      simp [Content.comment?]
    · refine (hp.add hlt _).add ?_ _
      rw [Arena.size_add]
      exact Nat.lt_succ_of_lt hlt
  | false =>
    obtain ⟨-, harena⟩ := create_of_not_template hname b attributes
    rw [harena]
    refine ⟨hf.arena.add hlinked _, ?_, fun p hlt hp => hp.add hlt _⟩
    rw [Arena.comments_add]
    simp [Content.comment?]

/-- A new element that is put somewhere, and perhaps opened. -/
theorem Keeps.of_create (hb : b.IsSound) (hf : b.IsFilled scope) (hp : b.arena.HoldsNodes p)
    (hfill : b.arena.MayFill scope p) {e : OpenElement}
    (he : e = (b.create name attributes).1)
    (hput : Arena.Puts (b.create name attributes).2.arena b'.arena e.id p)
    (hopened : b'.opened = b.opened ∨ b'.opened = e :: b.opened ∧ scope.Fills name)
    (hhead : b'.head = b.head) : Keeps scope b [] b' := by
  subst he
  obtain ⟨hgrows, contents, helement⟩ := grows_create hb.arena hp name attributes hput
  obtain ⟨hfilled, hcomments, hmay⟩ := create_keeps hb hf name attributes
  have hname : (b.create name attributes).1.name = name := name_create b name attributes
  refine ⟨hb.of_grows hgrows hhead ?_, ?_, ?_⟩
  · refine hopened.imp_right fun hopened => ⟨_, contents, hopened.1, rfl, ?_⟩
    rw [hname]
    exact helement
  · refine hf.of_element? hb ?_ (fun e he => ?_) hhead fun c hc => ?_
    · exact hfilled.puts hput (hmay p hp.lt_size hfill)
    · rcases hopened with hopened | ⟨hopened, hfills⟩
      · exact .inl (hopened ▸ he)
      · rw [hopened] at he
        rcases List.mem_cons.1 he with rfl | he
        · exact .inr (hname.symm ▸ hfills)
        · exact .inl he
    · exact Arena.element?_congr (hgrows.content? c hc)
  · rw [hput.comments, hcomments, List.append_nil]

theorem Keeps.insertClosed (hb : b.IsSound) (hf : b.IsFilled scope) (name : Name)
    (attributes : List Markup.Attribute) :
    Keeps scope b [] (b.insertClosed name attributes).2 := by
  obtain ⟨p, hp, hat⟩ := hb.place_isAt
  have hholds := hb.holdsNodes_of_place hat
  obtain ⟨hid, hlt, hparent⟩ := size_create b name attributes
  refine .of_create hb hf hholds (hf.mayFill hb hat) rfl
    (puts_putAt hp hholds.lt_size hid hparent hlt) (.inl ?_) ?_
  · exact (opened_putAt _ _ _).trans (opened_create b name attributes)
  · exact (head_putAt _ _ _).trans (head_create b name attributes)

theorem Keeps.insertOpened (hb : b.IsSound) (hf : b.IsFilled scope) (hopen : scope.MayOpen b name)
    (attributes : List Markup.Attribute) :
    Keeps scope b [] (b.insertOpened name attributes).2 := by
  obtain ⟨p, hp, hat⟩ := hb.place_isAt
  have hholds := hb.holdsNodes_of_place hat
  obtain ⟨hid, hlt, hparent⟩ := size_create b name attributes
  refine .of_create (e := (b.create name attributes).1) hb hf hholds (hf.mayFill hb hat) rfl
    (puts_putAt hp hholds.lt_size hid hparent hlt) (.inr ⟨?_, hopen.fills hf.opened⟩) ?_
  · exact congrArg (_ :: ·) ((opened_putAt _ _ _).trans (opened_create b name attributes))
  · exact (head_putAt _ _ _).trans (head_create b name attributes)

theorem Keeps.insertRoot (hb : b.IsSound) (hf : b.IsFilled scope)
    (attributes : List Markup.Attribute) : Keeps scope b [] (b.insertRoot attributes) := by
  have hdoc : b.arena.HoldsNodes Arena.document := .inl hb.arena.document
  obtain ⟨hid, hlt, -⟩ := size_create b ⟨.html, "html"⟩ attributes
  have hput : Arena.Puts (b.create ⟨.html, "html"⟩ attributes).2.arena
      (b.insertRoot attributes).arena (b.create ⟨.html, "html"⟩ attributes).1.id
      Arena.document :=
    Arena.puts_append (Nat.lt_trans hdoc.lt_size (Nat.lt_of_le_of_lt hid hlt)) hlt
  exact .of_create hb hf hdoc hb.arena.document.mayFill rfl hput (.inr ⟨rfl, .html rfl⟩) rfl

theorem filter_cons_sublist {id : CellId} (he : e.id = id) (opened : List OpenElement) :
    ((e :: opened).filter fun t => t.id ≠ id).Sublist opened := by
  rw [List.filter_cons_of_neg (by simp [he])]
  exact List.filter_sublist

/-- An element that is put into the head, which is open for a moment. -/
theorem Keeps.intoHeadClosed (hb : b.IsSound) (hf : b.IsFilled scope) (name : Name)
    (attributes : List Markup.Attribute) :
    Keeps scope b [] (((b.push b.head).insertClosed name attributes).2.removeOpen b.head.id) := by
  have hkeeps : Keeps scope b []
      (b.withTree ((b.push b.head).insertClosed name attributes).2.arena b.opened) :=
    .of_create hb hf hb.head hf.head rfl (hb.puts_intoHead name attributes) (.inl rfl) rfl
  have hopened : ((b.push b.head).insertClosed name attributes).2.opened = b.head :: b.opened :=
    (opened_putAt _ _ _).trans (opened_create (b.push b.head) name attributes)
  refine hkeeps.trans (.steer hkeeps.isSound hkeeps.isFilled rfl ?_ (.inl ?_))
  · rw [removeOpen, hopened]
    exact filter_cons_sublist rfl b.opened
  · exact (head_putAt _ _ _).trans (head_create (b.push b.head) name attributes)

theorem Keeps.intoHeadOpened (hb : b.IsSound) (hf : b.IsFilled scope)
    (hopen : scope.MayOpen b name) (attributes : List Markup.Attribute) :
    Keeps scope b [] (((b.push b.head).insertOpened name attributes).2.removeOpen b.head.id) := by
  have hkeeps : Keeps scope b []
      (b.withTree ((b.push b.head).insertClosed name attributes).2.arena
        ((b.create name attributes).1 :: b.opened)) :=
    .of_create hb hf hb.head hf.head rfl (hb.puts_intoHead name attributes)
      (.inr ⟨rfl, hopen.fills hf.opened⟩) rfl
  have hopened : ((b.push b.head).insertOpened name attributes).2.opened =
      (b.create name attributes).1 :: b.head :: b.opened := by
    rw [← (create_push b b.head name attributes).1]
    exact congrArg (_ :: ·)
      ((opened_putAt _ _ _).trans (opened_create (b.push b.head) name attributes))
  refine hkeeps.trans (.steer hkeeps.isSound hkeeps.isFilled rfl ?_ (.inl ?_))
  · rw [removeOpen, hopened, List.filter_cons, withTree_opened]
    split
    · exact (filter_cons_sublist rfl b.opened).cons_cons _
    · exact (filter_cons_sublist rfl b.opened).cons _
  · exact (head_putAt _ _ _).trans (head_create (b.push b.head) name attributes)

/-! ## Edits and comments -/

theorem Keeps.merge (hb : b.IsSound) (hf : b.IsFilled scope) (id : CellId)
    (more : List Markup.Attribute) :
    Keeps scope b [] { b with arena := b.arena.addMissing id more } := by
  have hshape := Arena.sameShape_addMissing b.arena id more
  refine ⟨hb.of_sameShape hshape rfl rfl, ?_, hshape.comments.trans (List.append_nil _).symm⟩
  exact hf.of_element? hb (hf.arena.of_sameShape hshape) (fun _ => .inl) rfl
    fun c _ => hshape.element? c

/-- A formatting element that is split. -/
theorem Keeps.splitAround (hb : b.IsSound) (hf : b.IsFilled scope) {target : OpenElement}
    {tag : Tag} {block : OpenElement} {inner between outer : List OpenElement}
    (hopened : b.opened = inner ++ block :: (between ++ target :: outer))
    (hbound : ∀ e ∈ inner ++ block :: between, Name.boundsDefault e.name = false)
    (htag : isFormatting tag.name = true)
    (hremembers : ∀ entry ∈ b.formatting, scope.Remembers entry) :
    Keeps scope b [] (b.splitAround target.id tag inner block between outer) := by
  obtain ⟨x, hshifts, harena, hsame, hhead⟩ :=
    splitAround_shifts hb hopened hbound htag hremembers
  generalize b.splitAround target.id tag inner block between outer = split at harena hsame hhead ⊢
  have hkeeps := Keeps.shifts hb hf hshifts
  refine hkeeps.trans (.steer hkeeps.isSound hkeeps.isFilled harena ?_ (.inl hhead))
  rw [hsame]

end Builder

variable {b b' : Builder}

/-- Within a scope that drops no body an edit keeps all that has been built. -/
theorem Edit.keeps (hedit : Edit scope b b') (hscope : ¬scope.dropsBody) (hb : b.IsSound)
    (hf : b.IsFilled scope) : b.Keeps scope [] b' := by
  cases hedit with
  | steer harena hopened hhead => exact .steer hb hf harena hopened hhead
  | insertChar c => exact .insertChar hb hf c
  | insertClosed hmakes => exact .insertClosed hb hf _ _
  | insertOpened hmakes hopen => exact .insertOpened hb hf hopen _
  | insertRoot hmakes => exact .insertRoot hb hf _
  | merge id hmore => exact .merge hb hf id _
  | intoHeadClosed hmakes => exact .intoHeadClosed hb hf _ _
  | intoHeadOpened hmakes hopen => exact .intoHeadOpened hb hf hopen _
  | splitAround hopened hbound htag hremembers =>
    exact .splitAround hb hf hopened hbound htag.1 hremembers
  | dropBody hbody hdrops => exact absurd hdrops hscope

/-- A comment that is put in adds itself to what is kept. -/
theorem Builder.Notes.keeps {data : Text} (hnotes : b.Notes data b') (hb : b.IsSound)
    (hf : b.IsFilled scope) : b.Keeps scope [data] b' := by
  have happend : ∀ {p}, (p = Arena.document ∨ ∃ e ∈ b.opened, IsAt b.arena e p) →
      b.Keeps scope [data] (b.appendComment p data) := by
    intro p hat
    have hholds := hb.holdsNodes_of_place hat
    have hsize := Arena.size_add b.arena (.comment data)
    refine .of_puts hb hf (.comment data) trivial hholds (hf.mayFill hb hat)
      (Arena.puts_append ?_ ?_) rfl rfl
    · rw [hsize]
      exact Nat.lt_succ_of_lt hholds.lt_size
    · rw [hsize]
      exact Nat.lt_succ_self _
  cases hnotes with
  | here =>
    obtain ⟨p, hp, hat⟩ := hb.place_isAt
    have hholds := hb.holdsNodes_of_place hat
    refine .of_puts hb hf (.comment data) trivial hholds (hf.mayFill hb hat)
      (puts_putAt (b := { b with arena := (b.arena.add (.comment data)).2 }) hp hholds.lt_size
        (Nat.le_refl _) (fun _ => Arena.parent?_add _ _ _) ?_)
      (opened_putAt _ _ _) (head_putAt _ _ _)
    rw [Arena.size_add]
    exact Nat.lt_succ_self _
  | atRoot =>
    refine happend ?_
    rcases List.eq_nil_or_concat b.opened with hopened | ⟨rest, e, hopened⟩
    · rw [rootId, hopened]
      exact .inl rfl
    · rw [List.concat_eq_append] at hopened
      exact .inr ⟨e, by simp [hopened], rootId_isAt rest hopened⟩
  | outside => exact happend (.inl rfl)

/-- A course within a scope that drops no body adds its comments and no others. -/
theorem Course.keeps {datas : List Text} (hcourse : Course scope b datas b')
    (hscope : ¬scope.dropsBody) (hb : b.IsSound) (hf : b.IsFilled scope) :
    b.Keeps scope datas b' := by
  induction hcourse with
  | start => exact .steer hb hf rfl (.refl _) (.inl rfl)
  | edit _ hedit ih =>
    have hkeeps := ih.trans (hedit.keeps hscope ih.isSound ih.isFilled)
    rwa [List.append_nil] at hkeeps
  | note _ hnotes ih => exact ih.trans (hnotes.keeps ih.isSound ih.isFilled)

theorem start_isSound : Builder.start.IsSound :=
  ⟨Arena.isSound_empty, fun _ h => absurd h List.not_mem_nil, .nil,
    .inl Arena.isSound_empty.document, rfl⟩

theorem start_isFilled : Builder.start.IsFilled scope := by
  refine ⟨Arena.isFilled_empty, fun _ h => absurd h List.not_mem_nil, ?_⟩
  exact start_isSound.arena.document.mayFill

end SlimTemplate.Html
