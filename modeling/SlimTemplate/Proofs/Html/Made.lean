import SlimTemplate.Proofs.Html.Course
import SlimTemplate.Proofs.Html.Links

/-!
# What elements are made of

An edit only creates elements that its scope allows, and adds attributes only where the scope
allows to merge them. So whatever elements a scope speaks of, a course within it leads to a store
that holds no others.

## Main definitions

* `Html.Arena.IsMadeIn`: whether a scope allows each element of a store.

## Main statements

* `Html.Edit.isMadeIn`: edits create what their scope allows.
* `Html.Course.isMadeIn`: a course leads to allowed elements only.
-/

namespace SlimTemplate.Html

open Builder

/-- Whether a scope allows each element of a store. -/
def Arena.IsMadeIn (scope : Scope) (a : Arena) : Prop :=
  ∀ c name attributes contents, a.content? c = some (.element name attributes contents) →
    scope.makes name attributes

namespace Arena

variable {scope : Scope} {a a' : Arena}

/-- Whether a scope allows what a cell stands for. -/
def MakesContent (scope : Scope) : Content → Prop
  | .element name attributes _ => scope.makes name attributes
  | _ => True

theorem isMadeIn_empty : Arena.empty.IsMadeIn scope := by
  intro c name attributes contents h
  obtain ⟨cell, hcell, heq⟩ := Option.map_eq_some_iff.1 h
  obtain ⟨hlt, hget⟩ := Array.getElem?_eq_some_iff.1 hcell
  obtain rfl : c = 0 := Nat.lt_one_iff.1 hlt
  rw [← hget] at heq
  cases heq

theorem IsMadeIn.of_content? (h : a.IsMadeIn scope) (heq : ∀ c, a'.content? c = a.content? c) :
    a'.IsMadeIn scope :=
  fun c name attributes contents hc => h c name attributes contents (heq c ▸ hc)

theorem IsMadeIn.add (h : a.IsMadeIn scope) (content : Content)
    (hcontent : MakesContent scope content) : (a.add content).2.IsMadeIn scope := by
  intro c name attributes contents hc
  rw [content?_add] at hc
  split at hc
  · obtain rfl := Option.some.inj hc
    exact hcontent
  · exact h c name attributes contents hc

/-- A cell is changed, but stays what the scope allows. -/
theorem IsMadeIn.modify (h : a.IsMadeIn scope) (id : CellId) (f : Cell → Cell)
    (hf : ∀ cell : Cell, MakesContent scope cell.content → MakesContent scope (f cell).content) :
    (a.modify id f).IsMadeIn scope := by
  have hcontent : ∀ (c : CellId) (cell : Cell), a.cells[c]? = some cell → MakesContent scope cell.content := by
    intro c cell hcell
    cases heq : cell.content with
    | element name attributes contents =>
      exact h c name attributes contents (by rw [content?, hcell, Option.map_some, heq])
    | _ => trivial
  intro c name attributes contents hc
  obtain ⟨cell, hcell, heq⟩ := Option.map_eq_some_iff.1 hc
  have hmade : MakesContent scope cell.content := by
    rw [getElem?_modify] at hcell
    split at hcell
    · obtain ⟨old, hold, rfl⟩ := Option.map_eq_some_iff.1 hcell
      exact hf old (hcontent c old hold)
    · exact hcontent c cell hcell
  rw [heq] at hmade
  exact hmade

theorem IsMadeIn.extendText (h : a.IsMadeIn scope) (id : CellId) (c : Char) :
    (a.extendText id c).IsMadeIn scope := by
  refine h.modify id _ fun cell hcell => ?_
  split
  · trivial
  · exact hcell

theorem IsMadeIn.addMissing (h : a.IsMadeIn scope) (id : CellId) {more : List Markup.Attribute}
    (hmore : scope.Merges more) : (a.addMissing id more).IsMadeIn scope := by
  refine h.modify id _ fun cell hcell => ?_
  split
  · next name attributes contents heq =>
    rw [heq] at hcell
    exact hmore name attributes _ hcell List.filter_sublist
  · exact hcell

theorem IsMadeIn.appendChar (h : a.IsMadeIn scope) (p : CellId) (c : Char) :
    (a.appendChar p c).IsMadeIn scope := by
  have hnew : ((a.add (.text [c])).2.append p a.size).IsMadeIn scope :=
    (h.add (.text [c]) trivial).of_content? (content?_append _ _ _)
  rw [Arena.appendChar]
  split
  · split
    · exact h.extendText _ c
    · exact hnew
  · exact hnew

theorem IsMadeIn.insertCharBefore (h : a.IsMadeIn scope) (sibling : CellId) (c : Char) :
    (a.insertCharBefore sibling c).IsMadeIn scope := by
  have hnew : ((a.add (.text [c])).2.insertBefore sibling a.size).IsMadeIn scope :=
    (h.add (.text [c]) trivial).of_content? (content?_insertBefore _ _ _)
  simp only [Arena.insertCharBefore]
  split
  · exact h
  · split
    · split
      · exact h.extendText _ c
      · exact hnew
    · exact hnew

end Arena

variable {scope : Scope} {b b' : Builder}

theorem isMadeIn_putAt {id : CellId} {place : Place} (h : b.arena.IsMadeIn scope) :
    (b.putAt id place).arena.IsMadeIn scope := by
  cases place with
  | inside parent => exact h.of_content? (Arena.content?_append _ _ _)
  | before sibling => exact h.of_content? (Arena.content?_insertBefore _ _ _)

theorem isMadeIn_create {name : Name} {attributes : List Markup.Attribute}
    (h : b.arena.IsMadeIn scope) (hmakes : scope.makes name attributes) :
    (b.create name attributes).2.arena.IsMadeIn scope := by
  rw [create]
  split
  · exact (h.add .root trivial).add _ hmakes
  · exact h.add _ hmakes

theorem isMadeIn_insertClosed {name : Name} {attributes : List Markup.Attribute}
    (h : b.arena.IsMadeIn scope) (hmakes : scope.makes name attributes) :
    (b.insertClosed name attributes).2.arena.IsMadeIn scope :=
  isMadeIn_putAt (isMadeIn_create h hmakes)

/-! ## Splitting -/

theorem isMadeIn_through {s : Split} (h : s.builder.arena.IsMadeIn scope)
    (hformatting : ∀ entry ∈ s.builder.formatting, scope.Remembers entry) (count : Nat)
    (e : OpenElement) :
    (s.through count e).builder.arena.IsMadeIn scope ∧
      ∀ entry ∈ (s.through count e).builder.formatting, scope.Remembers entry := by
  rw [Split.through]
  split
  · exact ⟨h, fun entry hentry => hformatting entry (List.mem_filter.1 hentry).1⟩
  · split
    · exact ⟨h, hformatting⟩
    · next tag hfind =>
      obtain ⟨entry, hentry, hsome⟩ := List.exists_of_findSome?_eq_some hfind
      have htag : ∀ id, scope.Remembers (.element id tag) := by
        cases entry with
        | marker => cases hsome
        | element id' tag' =>
          simp only [Option.ite_none_right_eq_some, Option.some.injEq] at hsome
          rw [← hsome.2]
          exact fun _ => hformatting (.element id' tag') hentry
      refine ⟨?_, fun entry hentry => ?_⟩
      · exact (isMadeIn_create h (htag 0).2).of_content? (Arena.content?_append _ _ _)
      · obtain ⟨old, hold, rfl⟩ := List.mem_map.1 hentry
        have hcreate : (s.builder.create ⟨.html, tag.name⟩ tag.attributes).2.formatting =
            s.builder.formatting := by
          rw [create]
          split <;> rfl
        rw [hcreate] at hold
        split
        · exact htag _
        · exact hformatting old hold

theorem isMadeIn_throughAll {s : Split} (h : s.builder.arena.IsMadeIn scope)
    (hformatting : ∀ entry ∈ s.builder.formatting, scope.Remembers entry) (count : Nat)
    (between : List OpenElement) :
    (s.throughAll count between).builder.arena.IsMadeIn scope := by
  induction between generalizing s count with
  | nil => exact h
  | cons e rest ih =>
    obtain ⟨hmade, hremembers⟩ := isMadeIn_through h hformatting count e
    exact ih hmade hremembers (count + 1)

theorem isMadeIn_put {s : Split} (h : s.builder.arena.IsMadeIn scope) (outer : List OpenElement) :
    (s.put outer).arena.IsMadeIn scope := by
  have hdetach : (s.builder.arena.detach s.last).IsMadeIn scope :=
    h.of_content? (Arena.content?_detach _ _)
  cases outer with
  | nil => exact isMadeIn_putAt hdetach
  | cons ancestor more => exact isMadeIn_putAt hdetach

theorem splitAround_arena (b : Builder) (id : CellId) (tag : Tag) (inner : List OpenElement)
    (block : OpenElement) (between outer : List OpenElement) :
    (b.splitAround id tag inner block between outer).arena =
      let copied := ((Split.throughAll ⟨b, block.id, [], none⟩ 1 between).put outer).create
        ⟨.html, tag.name⟩ tag.attributes
      (copied.2.arena.moveChildren block.id copied.1.id).append block.id copied.1.id := by
  rw [splitAround]

/-! ## Edits and courses -/

/-- Edits create what their scope allows. -/
theorem Edit.isMadeIn (hedit : Edit scope b b') (h : b.arena.IsMadeIn scope) :
    b'.arena.IsMadeIn scope := by
  cases hedit with
  | steer harena => rwa [harena]
  | insertChar c =>
    rw [Builder.insertChar]
    cases b.place with
    | inside parent => exact h.appendChar parent c
    | before sibling => exact h.insertCharBefore sibling c
  | insertClosed hmakes => exact isMadeIn_insertClosed h hmakes
  | insertOpened hmakes => exact isMadeIn_insertClosed h hmakes
  | insertRoot hmakes =>
    exact (isMadeIn_create h hmakes).of_content? (Arena.content?_append _ _ _)
  | merge id hmore => exact h.addMissing id hmore
  | intoHeadClosed hmakes => exact isMadeIn_insertClosed (b := b.push b.head) h hmakes
  | intoHeadOpened hmakes => exact isMadeIn_insertClosed (b := b.push b.head) h hmakes
  | @splitAround target tag block inner between outer opened bound htag hremembers =>
    have hsplit := isMadeIn_throughAll (s := ⟨b, block.id, [], none⟩) h hremembers 1 between
    have hcreate := isMadeIn_create (isMadeIn_put hsplit outer) htag.2
    rw [splitAround_arena]
    refine hcreate.of_content? fun c => ?_
    rw [Arena.content?_append, Arena.content?_moveChildren]
  | dropBody => exact h.of_content? (Arena.content?_detach _ _)

theorem Builder.Notes.isMadeIn {data : Text} (hnotes : b.Notes data b')
    (h : b.arena.IsMadeIn scope) : b'.arena.IsMadeIn scope := by
  have hadd : (b.arena.add (.comment data)).2.IsMadeIn scope :=
    h.add (.comment data) trivial
  cases hnotes with
  | here => exact isMadeIn_putAt (b := { b with arena := (b.arena.add (.comment data)).2 }) hadd
  | atRoot => exact hadd.of_content? (Arena.content?_append _ _ _)
  | outside => exact hadd.of_content? (Arena.content?_append _ _ _)

/-- A course leads to allowed elements only. -/
theorem Course.isMadeIn {datas : List Text} (hcourse : Course scope b datas b')
    (h : b.arena.IsMadeIn scope) : b'.arena.IsMadeIn scope := by
  induction hcourse with
  | start => exact h
  | edit _ hedit ih => exact hedit.isMadeIn ih
  | note _ hnotes ih => exact hnotes.isMadeIn ih

end SlimTemplate.Html
