import Mathlib.Logic.Relation
import SlimTemplate.Proofs.Html.Edit
import SlimTemplate.Proofs.Html.Move

/-!
# Splitting a formatting element, move by move

A formatting element is split around a block in one go, with the part around the block made before
it is put anywhere. The tree is in the end the same as if first the block had moved out of the
element, then each copy around it had been put where the block stands and had taken the block in,
and last a copy in the block had taken over what the block holds. Each of these moves keeps a
state sound.

## Main definitions

* `Html.Builder.Shift`: one move.

## Main statements

* `Html.Builder.Shift.isSound`: moves keep a state sound.
* `Html.Builder.splitAround_shifts`: an element is split by moves.
-/

namespace SlimTemplate.Html

open Builder (Place)

/-- The names of formatting elements. -/
def Name.IsFormatting (name : Name) : Prop :=
  name.space = .html ∧ isFormatting name.local = true

theorem Name.IsFormatting.isHtml_template {name : Name} (h : name.IsFormatting) :
    name.isHtml "template" = false := by
  by_contra hne
  have hname : name.local = "template" := by
    simp only [Name.isHtml, Bool.not_eq_false, Bool.and_eq_true, beq_iff_eq] at hne
    exact hne.2
  have hformatting := h.2
  rw [hname] at hformatting
  exact absurd hformatting (by decide)

namespace Builder

variable {b b' : Builder} {e : OpenElement} {inner outer : List OpenElement} {p : CellId}
  {place dest : Place} {name : Name} {attributes : List Markup.Attribute}

/-- Whether a place is at one of these open elements, or in the document itself. -/
structure StandsAt (b : Builder) (outer : List OpenElement) (place : Place) (p : CellId) :
    Prop where
  parent? : place.parent? b.arena = some p
  isAt : p = Arena.document ∨ ∃ t ∈ outer, IsAt b.arena t p

/-- The state with another tree and other open elements. -/
def withTree (b : Builder) (arena : Arena) (opened : List OpenElement) : Builder :=
  { b with arena, opened }

@[simp] theorem withTree_arena (arena : Arena) (opened : List OpenElement) :
    (b.withTree arena opened).arena = arena :=
  rfl

@[simp] theorem withTree_opened (arena : Arena) (opened : List OpenElement) :
    (b.withTree arena opened).opened = opened :=
  rfl

@[simp] theorem withTree_head (arena : Arena) (opened : List OpenElement) :
    (b.withTree arena opened).head = b.head :=
  rfl

/-- One move of an open element, of a new formatting element among the open ones, or of what an
open element holds. -/
inductive Shift : Builder → Builder → Prop
  | close {b : Builder} {opened : List OpenElement} (h : opened.Sublist b.opened) :
      Shift b (b.withTree b.arena opened)
  | move {b : Builder} {inner outer : List OpenElement} {e : OpenElement} {dest : Place} {p : CellId}
      (hopened : b.opened = inner ++ e :: outer) (hat : b.StandsAt outer dest p)
      (hne : dest ≠ .before e.id) : Shift b (b.withTree (b.arena.put e.id dest) b.opened)
  | insert {b : Builder} {inner outer : List OpenElement} {dest : Place} {p : CellId}
      (name : Name) (attributes : List Markup.Attribute) (holdsHtml : Bool)
      (hopened : b.opened = inner ++ outer) (hat : b.StandsAt outer dest p)
      (hname : name.IsFormatting) :
      Shift b (b.withTree
        ((b.arena.add (.element name attributes none)).2.put b.arena.size dest)
        (inner ++ ⟨b.arena.size, name, holdsHtml⟩ :: outer))
  | takeOver {b : Builder} {inner outer : List OpenElement} {e : OpenElement}
      (name : Name) (attributes : List Markup.Attribute) (holdsHtml : Bool)
      (hopened : b.opened = inner ++ e :: outer) (hname : name.IsFormatting)
      (hblock : e.name.isHtml "template" = false) :
      Shift b (b.withTree
        (((b.arena.add (.element name attributes none)).2.moveChildren e.id
          b.arena.size).append e.id b.arena.size)
        (inner ++ ⟨b.arena.size, name, holdsHtml⟩ :: e :: outer))

namespace IsSound

theorem holdsNodes_of_standsAt (h : b.IsSound) (houter : ∀ t ∈ outer, t ∈ b.opened)
    (hat : b.StandsAt outer place p) : b.arena.HoldsNodes p := by
  rcases hat.isAt with rfl | ⟨t, ht, hp⟩
  · exact .inl h.arena.document
  · exact h.holdsNodes_of_isAt (houter t ht) hp

/-- A place at an outer element is not below an inner one. -/
theorem not_isUnder_of_standsAt (h : b.IsSound) (hopened : b.opened = inner ++ outer)
    (hat : b.StandsAt outer place p) : ∀ i ∈ inner, ¬IsUnder b.arena.up? p i.id := by
  intro i hi hunder
  have hmem : i ∈ b.opened := hopened ▸ List.mem_append_left _ hi
  have hroot := h.not_isRoot hmem
  rcases hat.isAt with rfl | ⟨t, ht, hp⟩
  · rw [hunder.eq_of_up_eq_none h.arena.hang.top_eq] at hroot
    exact hroot h.arena.document
  · have hapart := h.apart
    rw [hopened, List.map_append] at hapart
    have hcross := (List.pairwise_append.1 hapart).2.2
    refine hcross i.id (List.mem_map_of_mem hi) t.id (List.mem_map_of_mem ht) ?_
    exact h.isUnder_of_isAt (hopened ▸ List.mem_append_right _ ht) hp hroot hunder

theorem hasPlace (h : b.IsSound) (houter : ∀ t ∈ outer, t ∈ b.opened)
    (hat : b.StandsAt outer dest p) {c : CellId} (hne : dest ≠ .before c) :
    b.arena.HasPlace c dest p :=
  ⟨hat.parent?, (h.holdsNodes_of_standsAt houter hat).lt_size, hne⟩

end IsSound

theorem mem_opened_of_append (hopened : b.opened = inner ++ outer) : ∀ t ∈ outer, t ∈ b.opened := by
  intro t ht
  rw [hopened]
  exact List.mem_append_right _ ht

/-- An open element moves to a place at one further out. -/
theorem Shift.isSound_move (hb : b.IsSound) (hopened : b.opened = inner ++ e :: outer)
    (hat : b.StandsAt outer dest p) (hne : dest ≠ .before e.id) :
    (b.withTree (b.arena.put e.id dest) b.opened).IsSound := by
  have hopened' : b.opened = (inner ++ [e]) ++ outer := by
    rw [hopened, List.append_assoc]
    rfl
  have he : e ∈ b.opened := mem_opened_of_append hopened e List.mem_cons_self
  have houter := mem_opened_of_append hopened'
  have hput := (hb.hasPlace houter hat hne).puts (hb.lt_size he)
  have hinner := hb.not_isUnder_of_standsAt hopened' hat
  obtain ⟨hsound, hmoves⟩ := hb.arena.relocate (hb.not_isRoot he)
    (hb.holdsNodes_of_standsAt houter hat) (hinner e (by simp)) hput
  refine hb.of_content? hsound (fun c _ => hput.content? c) (fun _ => .inl) ?_ rfl
  have hapart := hb.apart
  rw [hopened, List.map_append, List.map_cons] at hapart
  show AreApart _ (b.opened.map (·.id))
  rw [hopened, List.map_append, List.map_cons]
  refine hmoves.areApart hapart fun i hi => ?_
  obtain ⟨i, hmem, rfl⟩ := List.mem_map.1 hi
  exact hinner i (List.mem_append_left _ hmem)

theorem not_mem_map_id (hb : b.IsSound) : b.arena.size ∉ b.opened.map (·.id) := by
  intro hmem
  obtain ⟨e, he, hid⟩ := List.mem_map.1 hmem
  exact Nat.lt_irrefl _ (hid ▸ hb.lt_size he)

/-- A new cell is put at a place. -/
theorem IsSound.puts_new (hb : b.IsSound) (houter : ∀ t ∈ outer, t ∈ b.opened)
    (hat : b.StandsAt outer dest p) (content : Content) :
    Arena.Puts (b.arena.add content).2 ((b.arena.add content).2.put b.arena.size dest)
      b.arena.size p := by
  have hlt := (hb.holdsNodes_of_standsAt houter hat).lt_size
  have hsize : b.arena.size < (b.arena.add content).2.size := by
    rw [Arena.size_add]
    exact Nat.lt_succ_self _
  have hplace : (b.arena.add content).2.HasPlace b.arena.size dest p := by
    refine Arena.HasPlace.of_parent? (c := b.arena.size) ⟨hat.parent?, hlt, ?_⟩
      (Nat.lt_trans hlt hsize) ?_ fun sibling _ => Arena.parent?_add _ _ _
    all_goals
      rintro rfl
      exact Nat.lt_irrefl _ (Arena.lt_size_of_parent? hat.parent?)
  exact hplace.puts hsize

/-- A new element is put at a place and joins the open ones. -/
theorem Shift.isSound_insert (hb : b.IsSound) (hopened : b.opened = inner ++ outer)
    (hat : b.StandsAt outer dest p) (hname : name.isHtml "template" = false) (holdsHtml : Bool) :
    (b.withTree ((b.arena.add (.element name attributes none)).2.put b.arena.size dest)
      (inner ++ ⟨b.arena.size, name, holdsHtml⟩ :: outer)).IsSound := by
  have hplain : Content.IsPlain (.element name attributes none) := ⟨rfl, hname⟩
  have houter := mem_opened_of_append hopened
  have hholds := hb.holdsNodes_of_standsAt houter hat
  have hput := hb.puts_new houter hat (.element name attributes none)
  have hgrows := hb.arena.put hholds hplain hput
  have hinterposes := hb.arena.interposes hholds.lt_size hplain hput
  refine hb.of_content? hgrows.isSound hgrows.content? (fun e he => ?_) ?_ rfl
  · rcases List.mem_append.1 he with he | he
    · exact .inl (hopened ▸ List.mem_append_left _ he)
    · rcases List.mem_cons.1 he with rfl | he
      · refine .inr ⟨none, ?_⟩
        rw [withTree_arena, hput.element?, Arena.element?_add, if_pos rfl]
        rfl
      · exact .inl (houter e he)
  · have hapart := hb.apart
    have hnew := not_mem_map_id hb
    rw [hopened, List.map_append] at hapart hnew
    show AreApart _ ((inner ++ _ :: outer).map (·.id))
    rw [List.map_append, List.map_cons]
    refine hinterposes.areApart hapart hnew (fun i hi => ?_) fun o ho y hy hup => ?_
    · obtain ⟨i, hmem, rfl⟩ := List.mem_map.1 hi
      exact hb.not_isUnder_of_standsAt hopened hat i hmem
    · by_cases hyx : y = b.arena.size
      · rw [hyx, hinterposes.up_eq] at hup
        exact Nat.ne_of_lt hholds.lt_size (Option.some.inj hup)
      · rw [hgrows.up? y ?_] at hup
        · exact hinterposes.isNew.2 y hup
        · obtain ⟨t, ht, rfl⟩ := List.mem_map.1 ho
          exact hb.arena.lt_size_of_isUnder hy (hb.lt_size (houter t ht))

/-- A new element takes over what an open element holds, and joins the open ones inside it. -/
theorem Shift.isSound_takeOver (hb : b.IsSound) (hopened : b.opened = inner ++ e :: outer)
    (hname : name.isHtml "template" = false) (hblock : e.name.isHtml "template" = false)
    (holdsHtml : Bool) :
    (b.withTree (((b.arena.add (.element name attributes none)).2.moveChildren e.id
      b.arena.size).append e.id b.arena.size)
      (inner ++ ⟨b.arena.size, name, holdsHtml⟩ :: e :: outer)).IsSound := by
  have he : e ∈ b.opened := mem_opened_of_append hopened e List.mem_cons_self
  have hholds : b.arena.HoldsNodes e.id := by
    obtain ⟨contents, helement⟩ := hb.opened e he
    have hnone := hb.arena.isSome_contents _ _ _ helement
    rw [hblock, Option.isSome_eq_false_iff, Option.isNone_iff_eq_none] at hnone
    exact .inr ⟨e.name, hnone ▸ helement⟩
  have htakes := hb.arena.linked.takesOver (hb.lt_size he) (.element name attributes none)
  obtain ⟨hsound, hinterposes⟩ := hb.arena.takeOver hholds hname htakes
  refine hb.of_content? hsound (fun c hc => ?_) (fun t ht => ?_) ?_ (withTree_head _ _)
  · rw [withTree_arena, htakes.content?, if_neg (Nat.ne_of_lt hc)]
  · rcases List.mem_append.1 ht with ht | ht
    · exact .inl (hopened ▸ List.mem_append_left _ ht)
    · rcases List.mem_cons.1 ht with rfl | ht
      · refine .inr ⟨none, ?_⟩
        rw [withTree_arena, Arena.element?, htakes.content?, if_pos rfl]
        rfl
      · exact .inl (mem_opened_of_append hopened t ht)
  · have hapart := hb.apart
    have hnew := not_mem_map_id hb
    rw [hopened, List.map_append] at hapart hnew
    show AreApart _ ((inner ++ _ :: e :: outer).map (·.id))
    rw [List.map_append, List.map_cons]
    obtain ⟨-, hrest, hcross⟩ := List.pairwise_append.1 hapart
    refine hinterposes.areApart hapart hnew (fun i hi => ?_) fun o ho y hy hup => ?_
    · exact hcross i hi e.id (List.mem_map_of_mem List.mem_cons_self)
    · have hy' : y < b.arena.size := by
        obtain ⟨t, ht, rfl⟩ := List.mem_map.1 ho
        exact hb.arena.lt_size_of_isUnder hy (hb.lt_size (mem_opened_of_append hopened t ht))
      -- Only what was directly below the block is directly below the new element.
      rcases hinterposes.other y (Nat.ne_of_lt hy') with hsame | ⟨hye, -⟩
      · exact hinterposes.isNew.2 y (hsame ▸ hup)
      · rcases List.mem_cons.1 ho with rfl | ho
        · exact hb.arena.hang.not_isUnder_of_up hy' hye hy
        · exact (List.pairwise_cons.1 hrest).1 o ho (hy.trans (.of_up hye))

/-- Moves keep a state sound. -/
theorem Shift.isSound (h : Shift b b') (hb : b.IsSound) : b'.IsSound := by
  cases h with
  | close hsub => exact hb.steer rfl hsub (.inl rfl)
  | move hopened hat hne => exact isSound_move hb hopened hat hne
  | insert name attributes holdsHtml hopened hat hname =>
    exact isSound_insert hb hopened hat hname.isHtml_template holdsHtml
  | takeOver name attributes holdsHtml hopened hname hblock =>
    exact isSound_takeOver hb hopened hname.isHtml_template hblock holdsHtml

/-! ## The moves of a split -/

/-- Moves leave a state sound. -/
theorem IsSound.shifts (hb : b.IsSound) (h : Relation.ReflTransGen (Shift) b b') :
    b'.IsSound := by
  induction h with
  | refl => exact hb
  | tail _ hshift ih => exact hshift.isSound ih

/-- An open element among others that are apart is none of them. -/
theorem IsSound.id_ne (hb : b.IsSound) (hopened : b.opened = inner ++ outer) {i t : OpenElement}
    (hi : i ∈ inner) (ht : t ∈ outer) : i.id ≠ t.id := by
  have hnodup := hb.apart.nodup
  rw [hopened, List.map_append] at hnodup
  intro heq
  have hmem : i.id ∈ outer.map (·.id) := heq ▸ List.mem_map_of_mem ht
  exact List.disjoint_of_nodup_append hnodup (List.mem_map_of_mem hi) hmem

/-- A new element at the place of an open element takes that element in. -/
theorem IsSound.wrap (hb : b.IsSound) (hopened : b.opened = inner ++ e :: outer)
    (hat : b.StandsAt outer place p) (name : Name) (attributes : List Markup.Attribute)
    (holdsHtml : Bool) (hname : name.IsFormatting) :
    Relation.ReflTransGen (Shift) b (b.withTree
      (((b.arena.add (.element name attributes none)).2.put b.arena.size place).append
        b.arena.size e.id)
      (inner ++ e :: ⟨b.arena.size, name, holdsHtml⟩ :: outer)) := by
  have hopened' : b.opened = (inner ++ [e]) ++ outer := by
    rw [hopened, List.append_assoc]
    rfl
  have hinsert := Shift.insert name attributes holdsHtml hopened' hat hname
  have hsound := hinsert.isSound hb
  generalize hv : b.withTree _ _ = v at hinsert hsound
  have hv' : v.opened = inner ++ e :: ⟨b.arena.size, name, holdsHtml⟩ :: outer := by
    rw [← hv, withTree, List.append_assoc]
    rfl
  obtain ⟨contents, helement⟩ := hsound.opened ⟨b.arena.size, name, holdsHtml⟩
    (by rw [hv']; simp)
  have hnone : contents = none := by
    have := hsound.arena.isSome_contents _ _ _ helement
    rwa [hname.isHtml_template, Option.isSome_eq_false_iff, Option.isNone_iff_eq_none] at this
  have hstands : v.StandsAt (⟨b.arena.size, name, holdsHtml⟩ :: outer)
      (.inside b.arena.size) b.arena.size := by
    refine ⟨rfl, .inr ⟨_, List.mem_cons_self, .inl ?_⟩⟩
    rw [hnone] at helement
    exact (Arena.holder_of_element? helement).symm
  have hmove := Shift.move hv' hstands (fun h => nomatch h)
  refine (Relation.ReflTransGen.single hinsert).tail ?_
  rw [hv', ← hv] at hmove
  rw [← hv]
  exact hmove

/-- An element that is no template is one new cell. -/
theorem create_eq (hname : name.isHtml "template" = false) (b : Builder)
    (attributes : List Markup.Attribute) :
    b.create name attributes =
      (⟨b.arena.size, name, annotationHoldsHtml name attributes⟩,
        b.withTree (b.arena.add (.element name attributes none)).2 b.opened) := by
  rw [create, if_neg (by rw [hname]; exact Bool.false_ne_true)]
  rfl

/-- How far a split has come: moves lead to the tree that it would have if it ended here. -/
structure Split.Follows (scope : Scope) (b : Builder) (place : Place) (p : CellId)
    (inner : List OpenElement) (block : OpenElement) (outer : List OpenElement) (s : Split) :
    Prop where
  shifts : Relation.ReflTransGen (Shift) b
    (b.withTree (s.builder.arena.put s.last place) ((inner ++ block :: s.copies) ++ outer))
  linked : s.builder.arena.IsLinked
  hasPlace : s.builder.arena.HasPlace s.last place p
  last : ∃ before e, inner ++ block :: s.copies = before ++ [e] ∧ e.id = s.last
  last_new : s.last = block.id ∨ b.arena.size ≤ s.last
  size_le : b.arena.size ≤ s.builder.arena.size
  content? : ∀ c < b.arena.size, s.builder.arena.content? c = b.arena.content? c
  parent? : ∀ c < b.arena.size, c ≠ block.id →
    s.builder.arena.parent? c = b.arena.parent? c
  same : s.builder.opened = b.opened ∧ s.builder.fostering = b.fostering ∧
    s.builder.head = b.head
  remembers : ∀ entry ∈ s.builder.formatting, scope.Remembers entry

variable {scope : Scope} {block : OpenElement} {s : Split}

namespace Split.Follows

section

variable (h : s.Follows scope b place p inner block outer) (hb : b.IsSound)
include h hb

theorem last_lt : s.last < s.builder.arena.size := by
  obtain ⟨before, e, hlast, hid⟩ := h.last
  have hlt := (hb.shifts h.shifts).lt_size (e := e) <| by
    rw [withTree, hlast]
    simp
  rwa [hid, withTree, Arena.size_put] at hlt

/-- The elements around the split are neither the block nor the part around it. -/
theorem ne_of_mem_outer {t : OpenElement} (ht : t ∈ outer) : t.id ≠ s.last ∧ t.id ≠ block.id := by
  have hsound := hb.shifts h.shifts
  obtain ⟨before, e, hlast, hid⟩ := h.last
  rw [← hid]
  exact ⟨(hsound.id_ne rfl (by rw [hlast]; simp) ht).symm, (hsound.id_ne rfl (by simp) ht).symm⟩

/-- The place stays at the elements around the split. -/
theorem standsAt (hat : b.StandsAt outer place p) (houter : ∀ t ∈ outer, t ∈ b.opened) :
    (b.withTree (s.builder.arena.put s.last place)
      ((inner ++ block :: s.copies) ++ outer)).StandsAt outer place p := by
  refine ⟨h.hasPlace.put (h.last_lt hb), hat.isAt.imp_right ?_⟩
  rintro ⟨t, ht, hp⟩
  refine ⟨t, ht, ?_⟩
  have hlt := hb.lt_size (houter t ht)
  obtain ⟨hlast, hblock⟩ := h.ne_of_mem_outer hb ht
  rcases hp with hp | hp
  · refine .inl ?_
    rw [hp, Arena.holder_eq, Arena.holder_eq, withTree,
      Arena.element?_congr (Arena.content?_put _ _ _ _),
      Arena.element?_congr (h.content? t.id hlt)]
  · refine .inr ?_
    rw [withTree, h.hasPlace.parent?_put (h.last_lt hb), if_neg hlast,
      h.parent? t.id hlt hblock, hp]

/-- A copy around the part that has been split off. -/
theorem wrap (hat : b.StandsAt outer place p) (houter : ∀ t ∈ outer, t ∈ b.opened)
    {name : Name} {attributes : List Markup.Attribute} (hname : name.IsFormatting)
    (holdsHtml : Bool) :
    Relation.ReflTransGen (Shift) b (b.withTree
      (((s.builder.arena.add (.element name attributes none)).2.append
        s.builder.arena.size s.last).put s.builder.arena.size place)
      ((inner ++ block :: (s.copies ++ [⟨s.builder.arena.size, name, holdsHtml⟩])) ++ outer)) := by
  obtain ⟨before, e, hlast, hid⟩ := h.last
  have hsplit : (b.withTree (s.builder.arena.put s.last place)
      ((inner ++ block :: s.copies) ++ outer)).opened = before ++ e :: outer := by
    rw [withTree_opened, hlast, List.append_assoc, List.singleton_append]
  have hwrap := (hb.shifts h.shifts).wrap hsplit (h.standsAt hb hat houter) name attributes
    holdsHtml hname
  refine h.shifts.trans ?_
  have hopened : (inner ++ block :: (s.copies ++ [⟨s.builder.arena.size, name, holdsHtml⟩])) ++
      outer = before ++ e :: ⟨s.builder.arena.size, name, holdsHtml⟩ :: outer := by
    rw [← List.cons_append, ← List.append_assoc inner, hlast]
    simp
  rw [h.hasPlace.put_wrap h.linked (h.last_lt hb), hopened]
  rw [hid, withTree, Arena.size_put] at hwrap
  exact hwrap

/-- Splitting one more element follows the moves. -/
theorem through (hat : b.StandsAt outer place p) (houter : ∀ t ∈ outer, t ∈ b.opened)
    (count : Nat) (e : OpenElement) :
    (s.through count e).Follows scope b place p inner block outer := by
  rw [Split.through]
  split
  · exact { h with
      remembers := fun entry hentry => h.remembers entry (List.mem_filter.1 hentry).1 }
  · split
    · exact h
    · next tag hfind =>
      obtain ⟨entry, hentry, hsome⟩ := List.exists_of_findSome?_eq_some hfind
      have htag : ∀ id, scope.Remembers (.element id tag) := by
        cases entry with
        | marker => cases hsome
        | element id' tag' =>
          simp only [Option.ite_none_right_eq_some, Option.some.injEq] at hsome
          rw [← hsome.2]
          exact fun _ => h.remembers (.element id' tag') hentry
      have hname : Name.IsFormatting ⟨.html, tag.name⟩ := ⟨rfl, (htag 0).1⟩
      have hlt := h.last_lt hb
      obtain ⟨hlinked, hplace⟩ := h.hasPlace.wrap h.linked hlt
        (.element ⟨.html, tag.name⟩ tag.attributes none)
      simp only [create_eq hname.isHtml_template, withTree_arena]
      refine ⟨h.wrap hb hat houter hname _, hlinked, hplace, ?_, .inr h.size_le, ?_, fun c hc => ?_,
        fun c hc hne => ?_, h.same, fun entry hentry => ?_⟩
      · exact ⟨inner ++ block :: s.copies, _, by rw [List.append_assoc]; rfl, rfl⟩
      · rw [Arena.size_append, Arena.size_add]
        exact Nat.le_succ_of_le h.size_le
      · rw [Arena.content?_append, Arena.content?_add, if_neg, h.content? c hc]
        exact Nat.ne_of_lt (Nat.lt_of_lt_of_le hc h.size_le)
      · have hlast : c ≠ s.last := by
          rintro rfl
          rcases h.last_new with hlast | hlast
          · exact hne hlast
          · exact Nat.lt_irrefl _ (Nat.lt_of_lt_of_le hc hlast)
        rw [Arena.parent?_append, if_neg hlast, Arena.parent?_add, h.parent? c hc hne]
        rw [Arena.size_add]
        exact Nat.lt_succ_of_lt hlt
      · obtain ⟨old, hold, rfl⟩ := List.mem_map.1 hentry
        split
        · exact htag _
        · exact h.remembers old hold

theorem throughAll (hat : b.StandsAt outer place p) (houter : ∀ t ∈ outer, t ∈ b.opened)
    (count : Nat) (between : List OpenElement) :
    (s.throughAll count between).Follows scope b place p inner block outer := by
  induction between generalizing s count with
  | nil => exact h
  | cons e rest ih => exact ih (h.through hb hat houter count e) (count + 1)

end

end Split.Follows

/-! ### The place of the part around the block -/

theorem not_isHtml_of_boundsDefault {name : Name} (h : name.boundsDefault = false) :
    name.isHtml "template" = false ∧ name.isHtml "table" = false := by
  obtain ⟨space, text⟩ := name
  constructor
  all_goals
    by_contra hne
    simp only [Name.isHtml, Bool.not_eq_false, Bool.and_eq_true, beq_iff_eq] at hne
    obtain ⟨rfl, rfl⟩ := hne
    cases h

/-- Elements that bound no scope are no places for misplaced content. -/
theorem fosterPlace_append (b : Builder) {before rest : List OpenElement}
    (h : ∀ e ∈ before, Name.boundsDefault e.name = false) :
    b.fosterPlace (before ++ rest) = b.fosterPlace rest := by
  induction before with
  | nil => rfl
  | cons e before ih =>
    obtain ⟨he, hrest⟩ := List.forall_mem_cons.1 h
    obtain ⟨htemplate, htable⟩ := not_isHtml_of_boundsDefault he
    have hstep : b.fosterPlace (e :: (before ++ rest)) = b.fosterPlace (before ++ rest) := by
      rw [fosterPlace.eq_def]
      simp only [htemplate, htable, Bool.false_eq_true, if_false]
    exact hstep.trans (ih hrest)

/-- Where misplaced content goes depends on the elements that it is looked for in. -/
theorem fosterPlace_congr {opened : List OpenElement} (hroot : b'.rootId = b.rootId)
    (h : ∀ e ∈ opened, b'.arena.holder e.id = b.arena.holder e.id ∧
      b'.arena.parent? e.id = b.arena.parent? e.id) :
    b'.fosterPlace opened = b.fosterPlace opened := by
  induction opened with
  | nil => rw [fosterPlace, fosterPlace, hroot]
  | cons e rest ih =>
    obtain ⟨⟨hholder, hparent⟩, hrest⟩ := List.forall_mem_cons.1 h
    rw [fosterPlace.eq_def, fosterPlace.eq_def b]
    simp only [hholder, hparent, ih hrest, hroot]

/-- Misplaced content goes before one of the elements that its place is looked for in. -/
theorem mem_of_fosterPlace {opened : List OpenElement} {sibling : CellId}
    (h : b.fosterPlace opened = .before sibling) : ∃ e ∈ opened, e.id = sibling := by
  induction opened with
  | nil => cases h
  | cons e rest ih =>
    rw [fosterPlace.eq_def] at h
    simp only at h
    split at h
    · cases h
    · split at h
      · split at h
        · exact ⟨e, List.mem_cons_self, Place.before.inj h⟩
        · split at h <;> cases h
      · obtain ⟨t, ht, hid⟩ := ih h
        exact ⟨t, List.mem_cons_of_mem e ht, hid⟩

/-- The place of the part around the block: where the elements around the formatting element call
for it. -/
def splitPlace (b : Builder) : List OpenElement → Place
  | ancestor :: _ => b.placeIn ancestor
  | [] => .inside Arena.document

section SplitPlace

variable {inside : List OpenElement} {target : OpenElement}

/-- The place of the part around the block is at the formatting element or further out. -/
theorem IsSound.splitPlace (hb : b.IsSound) (hopened : b.opened = inside ++ target :: outer)
    (hbound : ∀ e ∈ inside, Name.boundsDefault e.name = false) :
    ∃ p, b.StandsAt (target :: outer) (b.splitPlace outer) p ∧
      ∀ e ∈ inside, b.splitPlace outer ≠ .before e.id := by
  cases outer with
  | nil =>
    refine ⟨_, ⟨rfl, .inl rfl⟩, fun _ _ h => ?_⟩
    cases h
  | cons ancestor more =>
    rw [Builder.splitPlace, placeIn]
    split
    · rw [hopened, fosterPlace_append b hbound]
      obtain ⟨t, ht, p, hp, hat⟩ := hb.fosterPlace inside (target :: ancestor :: more) hopened
        (List.cons_ne_nil _ _)
      refine ⟨p, ⟨hp, .inr ⟨t, ht, hat⟩⟩, fun e he hbefore => ?_⟩
      obtain ⟨t', ht', hid⟩ := mem_of_fosterPlace hbefore
      exact hb.id_ne hopened he ht' hid.symm
    · refine ⟨_, ⟨rfl, .inr ⟨ancestor, ?_, .inl rfl⟩⟩, fun _ _ h => ?_⟩
      · exact List.mem_cons_of_mem _ List.mem_cons_self
      · cases h

theorem splitPlace_congr (hopened : b.opened = inside ++ target :: outer)
    (hbound : ∀ e ∈ inside, Name.boundsDefault e.name = false) (hsame : b'.opened = b.opened)
    (hfostering : b'.fostering = b.fostering)
    (h : ∀ e ∈ target :: outer, b'.arena.holder e.id = b.arena.holder e.id ∧
      b'.arena.parent? e.id = b.arena.parent? e.id) :
    b'.splitPlace outer = b.splitPlace outer := by
  cases outer with
  | nil => rfl
  | cons ancestor more =>
    have hroot : b'.rootId = b.rootId := by
      obtain ⟨e, he⟩ : ∃ e, (target :: ancestor :: more).getLast? = some e :=
        ⟨_, List.getLast?_eq_some_getLast (List.cons_ne_nil _ _)⟩
      rw [rootId, rootId, hsame, hopened, List.getLast?_append, he]
      exact (h e (List.mem_of_getLast? he)).1
    have hholder := (h ancestor (List.mem_cons_of_mem _ List.mem_cons_self)).1
    rw [Builder.splitPlace, Builder.splitPlace, placeIn, placeIn, hfostering, hholder, hsame,
      hopened, fosterPlace_append b' hbound, fosterPlace_append b hbound,
      fosterPlace_congr hroot h]

/-- Without the part around the block, its place is found where it was at the start. -/
theorem Split.Follows.splitPlace_eq
    (h : s.Follows scope b place p inner block (target :: outer)) (hb : b.IsSound)
    (hopened : b.opened = inside ++ target :: outer)
    (hbound : ∀ e ∈ inside, Name.boundsDefault e.name = false) :
    (s.builder.withTree (s.builder.arena.detach s.last) s.builder.opened).splitPlace outer =
      b.splitPlace outer := by
  refine splitPlace_congr hopened hbound h.same.1 h.same.2.1 fun t ht => ?_
  have hlt := hb.lt_size (mem_opened_of_append hopened t ht)
  obtain ⟨hlast, hblock⟩ := h.ne_of_mem_outer hb ht
  constructor
  · rw [withTree_arena, Arena.holder_eq, Arena.holder_eq,
      Arena.element?_congr (Arena.content?_detach _ _ _),
      Arena.element?_congr (h.content? t.id hlt)]
  · rw [withTree_arena, Arena.parent?_detach, if_neg hlast]
    exact h.parent? t.id hlt hblock

end SplitPlace

/-- The part around the block is taken out of its parent before its place is looked for. -/
theorem Split.put_eq (s : Split) (outer : List OpenElement) :
    s.put outer = s.builder.withTree (s.builder.arena.put s.last
      ((s.builder.withTree (s.builder.arena.detach s.last) s.builder.opened).splitPlace outer))
      s.builder.opened := by
  have hput : ∀ place : Place,
      (s.builder.withTree (s.builder.arena.detach s.last) s.builder.opened).putAt s.last place =
        s.builder.withTree (s.builder.arena.put s.last place) s.builder.opened := by
    intro place
    rw [← Arena.put_detach]
    cases place <;> rfl
  cases outer with
  | nil => exact hput (.inside Arena.document)
  | cons ancestor more => exact hput (placeIn _ ancestor)

/-- Before any element has been split, the block alone has moved. -/
theorem Split.Follows.start {between : List OpenElement} (hb : b.IsSound)
    (hopened : b.opened = inner ++ block :: (between ++ outer)) (hat : b.StandsAt outer place p)
    (hne : place ≠ .before block.id)
    (hremembers : ∀ entry ∈ b.formatting, scope.Remembers entry) :
    Split.Follows scope b place p inner block outer ⟨b, block.id, [], none⟩ := by
  have houter : ∀ t ∈ outer, t ∈ b.opened := by
    intro t ht
    rw [hopened]
    simp [ht]
  have hsub : (inner ++ block :: outer).Sublist b.opened := by
    rw [hopened]
    exact (List.sublist_append_right between outer).cons_cons block |>.append_left inner
  have hclose : Shift b (b.withTree b.arena (inner ++ block :: outer)) := .close hsub
  have hat' : (b.withTree b.arena (inner ++ block :: outer)).StandsAt outer place p :=
    ⟨hat.parent?, hat.isAt⟩
  have hmove : Shift (b.withTree b.arena (inner ++ block :: outer))
      ((b.withTree b.arena (inner ++ block :: outer)).withTree (b.arena.put block.id place)
        (inner ++ block :: outer)) :=
    .move rfl hat' hne
  refine ⟨?_, hb.arena.linked, hb.hasPlace houter hat hne, ⟨inner, block, rfl, rfl⟩, .inl rfl,
    Nat.le_refl _, fun _ _ => rfl, fun _ _ _ => rfl, ⟨rfl, rfl, rfl⟩, hremembers⟩
  rw [List.append_assoc]
  exact (Relation.ReflTransGen.single hclose).tail hmove

/-- The tree and the open elements after a formatting element has been split. -/
theorem splitAround_eq {tag : Tag} (hname : Name.isHtml ⟨.html, tag.name⟩ "template" = false)
    {between : List OpenElement} {arena : Arena}
    (hs : Split.throughAll ⟨b, block.id, [], none⟩ 1 between = s)
    (harena : (s.put outer).arena = arena) (id : CellId) (inner : List OpenElement) :
    (b.splitAround id tag inner block between outer).arena =
        ((arena.add (.element ⟨.html, tag.name⟩ tag.attributes none)).2.moveChildren block.id
          arena.size).append block.id arena.size ∧
      (b.splitAround id tag inner block between outer).opened =
        inner ++ ⟨arena.size, ⟨.html, tag.name⟩,
          annotationHoldsHtml ⟨.html, tag.name⟩ tag.attributes⟩ :: block ::
            (s.copies ++ outer) ∧
      (b.splitAround id tag inner block between outer).head = (s.put outer).head := by
  rw [splitAround, hs]
  simp only [create_eq hname, withTree_arena, harena]
  exact ⟨trivial, trivial, rfl⟩

/-- A formatting element is split by moves. -/
theorem splitAround_shifts (hb : b.IsSound) {target : OpenElement} {tag : Tag}
    {between : List OpenElement}
    (hopened : b.opened = inner ++ block :: (between ++ target :: outer))
    (hbound : ∀ e ∈ inner ++ block :: between, Name.boundsDefault e.name = false)
    (htag : isFormatting tag.name = true)
    (hremembers : ∀ entry ∈ b.formatting, scope.Remembers entry) :
    ∃ x, Relation.ReflTransGen (Shift) b x ∧
      (b.splitAround target.id tag inner block between outer).arena = x.arena ∧
      (b.splitAround target.id tag inner block between outer).opened = x.opened ∧
      (b.splitAround target.id tag inner block between outer).head = x.head := by
  have hinside : b.opened = (inner ++ block :: between) ++ target :: outer := by
    rw [hopened, List.append_assoc, List.cons_append]
  obtain ⟨p, hat, hne⟩ := hb.splitPlace hinside hbound
  have houter : ∀ t ∈ target :: outer, t ∈ b.opened := mem_opened_of_append hinside
  have hblock : block ∈ inner ++ block :: between := by simp
  have hstart := Split.Follows.start hb hopened hat (hne block hblock) hremembers
  have hfollows := hstart.throughAll hb hat houter 1 between
  generalize hs : Split.throughAll ⟨b, block.id, [], none⟩ 1 between = s at hfollows
  have hput : (s.put outer).arena = s.builder.arena.put s.last (b.splitPlace outer) ∧
      (s.put outer).head = b.head := by
    rw [Split.put_eq, hfollows.splitPlace_eq hb hinside hbound]
    exact ⟨rfl, hfollows.same.2.2⟩
  have hname : Name.IsFormatting ⟨.html, tag.name⟩ := ⟨rfl, htag⟩
  have htemplate := (not_isHtml_of_boundsDefault (hbound block hblock)).1
  have hshifts := hfollows.shifts
  generalize s.builder.arena.put s.last (b.splitPlace outer) = arena at hput hshifts
  obtain ⟨harena, hopened', hhead⟩ := splitAround_eq hname.isHtml_template hs hput.1 target.id inner
  rw [harena, hopened', hhead, hput.2]
  generalize hcopy : (⟨arena.size, ⟨.html, tag.name⟩,
    annotationHoldsHtml ⟨.html, tag.name⟩ tag.attributes⟩ : OpenElement) = copy
  have hbefore : (b.withTree arena ((inner ++ block :: s.copies) ++ target :: outer)).opened =
      inner ++ block :: (s.copies ++ target :: outer) := by
    rw [withTree_opened, List.append_assoc, List.cons_append]
  -- The block takes in the last copy, and then the formatting element is closed.
  have htake := hshifts.tail (.takeOver ⟨.html, tag.name⟩ tag.attributes
    (annotationHoldsHtml ⟨.html, tag.name⟩ tag.attributes) hbefore hname htemplate)
  have hclosed : (inner ++ copy :: block :: (s.copies ++ outer)).Sublist
      (inner ++ copy :: block :: (s.copies ++ target :: outer)) :=
    (((List.sublist_cons_self target outer).append_left s.copies).cons_cons block
      |>.cons_cons copy).append_left inner
  subst hcopy
  exact ⟨_, htake.tail (.close hclosed), rfl, rfl, by simp only [withTree_head]⟩

end Builder

end SlimTemplate.Html
