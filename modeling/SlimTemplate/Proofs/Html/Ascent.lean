import Mathlib.Data.List.Pairwise
import SlimTemplate.Html.Arena

/-!
# Cells below each other

Links that lead from each cell at most one cell up make a forest where every cell comes to one top.
Two changes keep it so: a cell with all that lies below it moves to a cell that does not lie below
it, and a new cell takes its place between a cell and some of those directly below.

Open elements are apart when none of them lies below one that is further inside. Both changes keep
them apart, and a new cell can join them.

## Main definitions

* `Html.IsUnder`: a cell and all that lies below it.
* `Html.HangFrom`: cells that all lie below one that has nothing above it.
* `Html.Moves`, `Html.Interposes`: the two changes.
* `Html.AreApart`: cells none of which lies below one before it.

## Main statements

* `Html.HangFrom.antisymm`: two cells below each other are one.
* `Html.Moves.hangFrom`, `Html.Interposes.hangFrom`: the changes keep all cells below the top.
* `Html.Moves.areApart`, `Html.Interposes.areApart`: they keep cells apart.
-/

namespace SlimTemplate.Html

variable {up up' : CellId → Option CellId} {c d e x p q top : CellId} {cells : CellId → Prop}

/-- A cell and all that lies below it, by links that lead up. -/
inductive IsUnder (up : CellId → Option CellId) : CellId → CellId → Prop
  | self (c : CellId) : IsUnder up c c
  | step {c d e : CellId} (h : up c = some d) (hd : IsUnder up d e) : IsUnder up c e

namespace IsUnder

theorem of_up (h : up c = some d) : IsUnder up c d :=
  step h (self d)

theorem trans (hcd : IsUnder up c d) (hde : IsUnder up d e) : IsUnder up c e := by
  induction hcd with
  | self => exact hde
  | step h _ ih => exact step h (ih hde)

/-- A cell below another is that cell, or the next one up is below it. -/
theorem eq_or_up (h : IsUnder up c e) : c = e ∨ ∃ d, up c = some d ∧ IsUnder up d e := by
  cases h with
  | self => exact Or.inl rfl
  | step h hd => exact Or.inr ⟨_, h, hd⟩

theorem of_up_of_ne (h : IsUnder up c e) (hne : c ≠ e) (hup : up c = some d) :
    IsUnder up d e := by
  rcases h.eq_or_up with rfl | ⟨d', hd', h⟩
  · exact absurd rfl hne
  · rw [hup, Option.some.injEq] at hd'
    rwa [hd']

theorem eq_of_up_eq_none (h : IsUnder up c d) (hup : up c = none) : d = c := by
  rcases h.eq_or_up with rfl | ⟨d', hd', -⟩
  · rfl
  · rw [hup] at hd'
    cases hd'

/-- Of two cells above a third one is above the other. -/
theorem linear (hd : IsUnder up c d) (he : IsUnder up c e) : IsUnder up d e ∨ IsUnder up e d := by
  induction hd with
  | self => exact Or.inl he
  | step h hd ih =>
    rcases he.eq_or_up with rfl | ⟨d', hd', he⟩
    · exact Or.inr (step h hd)
    · rw [h, Option.some.injEq] at hd'
      rw [← hd'] at he
      exact ih he

/-- Links that agree on all that is above a cell have the same above it. -/
theorem congr (h : IsUnder up c d) (hup : ∀ y, IsUnder up c y → up' y = up y) :
    IsUnder up' c d := by
  induction h with
  | self => exact self _
  | @step c d e h _ ih =>
    refine step ((hup c (self c)).trans h) (ih ?_)
    exact fun y hy => hup y (step h hy)

end IsUnder

/-- Cells that all lie below one that has nothing above it. -/
structure HangFrom (up : CellId → Option CellId) (top : CellId) (cells : CellId → Prop) :
    Prop where
  top_eq : up top = none
  isUnder : ∀ c, cells c → IsUnder up c top

namespace HangFrom

theorem mono {cells' : CellId → Prop} (h : HangFrom up top cells)
    (hcells : ∀ c, cells' c → cells c) : HangFrom up top cells' :=
  ⟨h.top_eq, fun c hc => h.isUnder c (hcells c hc)⟩

/-- Two cells below each other are one. -/
theorem antisymm (h : HangFrom up top cells) (hc : cells c) (hcd : IsUnder up c d)
    (hdc : IsUnder up d c) : c = d := by
  have hclimb := h.isUnder c hc
  have htop := h.top_eq
  clear h hc
  induction hclimb generalizing d with
  | self => exact (hcd.eq_of_up_eq_none htop).symm
  | @step c e _ hce _ ih =>
    by_contra hne
    -- Both lie below each other and below the next cell up, which by induction they both are.
    have hed : IsUnder up e d := hcd.of_up_of_ne hne hce
    have hde : IsUnder up d e := hdc.trans (IsUnder.of_up hce)
    have hec : IsUnder up e c := hed.trans hdc
    exact hne ((ih hec (IsUnder.of_up hce) htop).symm.trans (ih hed hde htop))

theorem up_ne_self (h : HangFrom up top cells) (hc : cells c) : up c ≠ some c := by
  have hclimb := h.isUnder c hc
  have htop := h.top_eq
  clear h hc
  induction hclimb with
  | self =>
    rw [htop]
    exact Option.some_ne_none _ |>.symm
  | @step c d _ hcd _ ih =>
    intro hself
    rw [hcd, Option.some.injEq] at hself
    rw [hself] at hcd
    rw [hself] at ih
    exact ih htop hcd

/-- No cell lies above the one that is directly above it. -/
theorem not_isUnder_of_up (h : HangFrom up top cells) (hc : cells c) (hup : up c = some d) :
    ¬IsUnder up d c := by
  intro hdc
  rw [← h.antisymm hc (IsUnder.of_up hup) hdc] at hup
  exact h.up_ne_self hc hup

end HangFrom

/-! ## A cell that moves -/

/-- The links after a cell has moved directly below another that did not lie below it. -/
structure Moves (up up' : CellId → Option CellId) (x p : CellId) : Prop where
  up_eq : up' x = some p
  eq_of_ne : ∀ y, y ≠ x → up' y = up y
  not_isUnder : ¬IsUnder up p x

namespace Moves

/-- What does not lie below the moved cell keeps all that is above it. -/
theorem isUnder_iff_of_not (h : Moves up up' x p) (hc : ¬IsUnder up c x) :
    IsUnder up' c d ↔ IsUnder up c d := by
  have hframe : ∀ y, IsUnder up c y → up' y = up y := by
    intro y hy
    refine h.eq_of_ne y ?_
    rintro rfl
    exact hc hy
  refine ⟨fun hd => ?_, fun hd => hd.congr hframe⟩
  -- The way up from `c` is the same in both, so it never meets the moved cell.
  induction hd with
  | self => exact IsUnder.self _
  | @step c e d hce _ ih =>
    rw [hframe c (IsUnder.self c)] at hce
    have he : ¬IsUnder up e x := fun hx => hc (IsUnder.step hce hx)
    exact IsUnder.step hce (ih he fun y hy => hframe y (IsUnder.step hce hy))

/-- What lies below the moved cell still does. -/
theorem isUnder_moved (h : Moves up up' x p) (hc : IsUnder up c x) : IsUnder up' c x := by
  induction hc with
  | self => exact IsUnder.self _
  | @step c d x hcd _ ih =>
    by_cases hcx : c = x
    · rw [hcx]
      exact IsUnder.self x
    · exact IsUnder.step ((h.eq_of_ne c hcx).trans hcd) (ih h)

/-- What a cell lies below was above it before, or is above the place that the moved cell went
to. -/
theorem isUnder_cases (h : Moves up up' x p) (hd : IsUnder up' c d) :
    IsUnder up c d ∨ (IsUnder up c x ∧ IsUnder up p d) := by
  induction hd with
  | self => exact Or.inl (IsUnder.self _)
  | @step c e d hce hed ih =>
    by_cases hcx : c = x
    · rw [hcx, h.up_eq, Option.some.injEq] at hce
      rw [← hce] at hed
      exact Or.inr ⟨hcx ▸ IsUnder.self c, (h.isUnder_iff_of_not h.not_isUnder).1 hed⟩
    · rw [h.eq_of_ne c hcx] at hce
      exact ih.imp (IsUnder.step hce) fun hx => ⟨IsUnder.step hce hx.1, hx.2⟩

theorem hangFrom (h : Moves up up' x p) (hang : HangFrom up top cells) (hp : cells p)
    (htop : top ≠ x) : HangFrom up' top cells where
  top_eq := by rw [h.eq_of_ne top htop, hang.top_eq]
  isUnder c hc := by
    have hptop : IsUnder up' p top :=
      (h.isUnder_iff_of_not h.not_isUnder).2 (hang.isUnder p hp)
    by_cases hcx : IsUnder up c x
    · exact (h.isUnder_moved hcx).trans (IsUnder.step h.up_eq hptop)
    · exact (h.isUnder_iff_of_not hcx).2 (hang.isUnder c hc)

end Moves

/-! ## A new cell between others -/

/-- The links after a new cell has been put directly below a cell `q`, and above some of the cells
that were directly below `q`. -/
structure Interposes (up up' : CellId → Option CellId) (x q : CellId) : Prop where
  up_eq : up' x = some q
  ne : q ≠ x
  /-- Nothing was above or below the new cell. -/
  isNew : up x = none ∧ ∀ y, up y ≠ some x
  other : ∀ y, y ≠ x → up' y = up y ∨ (up y = some q ∧ up' y = some x)

namespace Interposes

/-- Nothing was below the new cell. -/
theorem eq_of_isUnder_new (h : Interposes up up' x q) (hc : IsUnder up c x) : c = x := by
  induction hc with
  | self => rfl
  | @step c e _ hce _ ih =>
    rw [ih h] at hce
    exact absurd hce (h.isNew.2 c)

/-- The old cells lie below each other as before. -/
theorem isUnder_of_isUnder (h : Interposes up up' x q) (hc : c ≠ x) (hd : IsUnder up c d) :
    IsUnder up' c d := by
  induction hd with
  | self => exact IsUnder.self _
  | @step c e d hce _ ih =>
    have he : e ≠ x := by
      rintro rfl
      exact h.isNew.2 c hce
    rcases h.other c hc with hsame | ⟨hq, hx⟩
    · exact IsUnder.step (hsame.trans hce) (ih he)
    · rw [hce, Option.some.injEq] at hq
      exact IsUnder.step hx (IsUnder.step h.up_eq (hq ▸ ih he))

/-- What a cell lies below: for an old cell what was above it before, or the new cell if it lies
below one that the new cell was put above; for the new cell itself, and all that `q` lies below. -/
theorem isUnder_cases (h : Interposes up up' x q) (hd : IsUnder up' c d) :
    (c ≠ x → IsUnder up c d ∨ (d = x ∧ ∃ y, IsUnder up c y ∧ up' y = some x)) ∧
      (c = x → d = x ∨ IsUnder up q d) := by
  induction hd with
  | self => exact ⟨fun _ => Or.inl (IsUnder.self _), Or.inl⟩
  | @step c e d hce hed ih =>
    constructor
    · intro hc
      rcases h.other c hc with hsame | ⟨hq, hx⟩
      · have hce' : up c = some e := hsame ▸ hce
        have he : e ≠ x := by
          rintro rfl
          exact h.isNew.2 c hce'
        rcases ih.1 he with hd | ⟨hd, y, hy, hup⟩
        · exact Or.inl (IsUnder.step hce' hd)
        · exact Or.inr ⟨hd, y, IsUnder.step hce' hy, hup⟩
      · have hex : e = x := Option.some.inj (hce.symm.trans hx)
        rcases ih.2 hex with hd | hd
        · exact Or.inr ⟨hd, c, IsUnder.self c, hx⟩
        · exact Or.inl (IsUnder.step hq hd)
    · intro hc
      rw [hc, h.up_eq, Option.some.injEq] at hce
      rw [← hce] at ih
      rcases ih.1 h.ne with hd | ⟨hd, -⟩
      · exact Or.inr hd
      · exact Or.inl hd

theorem isUnder_iff (h : Interposes up up' x q) (hc : c ≠ x) (hd : d ≠ x) :
    IsUnder up' c d ↔ IsUnder up c d :=
  ⟨fun hcd => ((h.isUnder_cases hcd).1 hc).resolve_right fun hx => hd hx.1,
    h.isUnder_of_isUnder hc⟩

theorem isUnder_new (h : Interposes up up' x q) (hd : d ≠ x) :
    IsUnder up' x d ↔ IsUnder up q d :=
  ⟨fun hxd => ((h.isUnder_cases hxd).2 rfl).resolve_left hd,
    fun hqd => IsUnder.step h.up_eq (h.isUnder_of_isUnder h.ne hqd)⟩

theorem hangFrom (h : Interposes up up' x q) (hang : HangFrom up top cells) (hq : cells q)
    (htop : top ≠ x) : HangFrom up' top fun c => cells c ∨ c = x where
  top_eq := by
    rcases h.other top htop with hsame | ⟨hup, -⟩
    · rw [hsame, hang.top_eq]
    · rw [hang.top_eq] at hup
      cases hup
  isUnder c hc := by
    by_cases hcx : c = x
    · rw [hcx]
      exact (h.isUnder_new htop).2 (hang.isUnder q hq)
    · exact h.isUnder_of_isUnder hcx (hang.isUnder c (hc.resolve_right hcx))

end Interposes

/-! ## Cells apart -/

/-- Cells none of which lies below one before it. -/
def AreApart (up : CellId → Option CellId) (cells : List CellId) : Prop :=
  cells.Pairwise fun inner outer => ¬IsUnder up outer inner

theorem AreApart.sublist {l l' : List CellId} (h : AreApart up l) (hl : l'.Sublist l) :
    AreApart up l' :=
  List.Pairwise.sublist hl h

theorem AreApart.nodup {l : List CellId} (h : AreApart up l) : l.Nodup :=
  List.Pairwise.imp (fun hnot heq => hnot (by rw [heq]; exact IsUnder.self _)) h

/-- A cell that moves to a place below none of the inner cells stays apart from the others, and so
do they from each other. -/
theorem Moves.areApart (h : Moves up up' x p) {inner outer : List CellId}
    (hapart : AreApart up (inner ++ x :: outer)) (hp : ∀ i ∈ inner, ¬IsUnder up p i) :
    AreApart up' (inner ++ x :: outer) := by
  obtain ⟨hinner, hrest, hcross⟩ := List.pairwise_append.1 hapart
  obtain ⟨hx, houter⟩ := List.pairwise_cons.1 hrest
  have hkeep : ∀ o i, ¬IsUnder up o i → (¬IsUnder up p i ∨ ¬IsUnder up o x) →
      ¬IsUnder up' o i := by
    intro o i ho hor hoi
    rcases h.isUnder_cases hoi with hoi | ⟨hox, hpi⟩
    · exact ho hoi
    · exact hor.elim (· hpi) (· hox)
  refine List.pairwise_append.2 ⟨?_, List.pairwise_cons.2 ⟨?_, ?_⟩, ?_⟩
  · exact hinner.imp_of_mem fun hi _ ho => hkeep _ _ ho (Or.inl (hp _ hi))
  · exact fun o ho => hkeep o x (hx o ho) (Or.inr (hx o ho))
  · exact houter.imp_of_mem fun _ ho' hoi => hkeep _ _ hoi (Or.inr (hx _ ho'))
  · intro i hi o ho
    exact hkeep o i (hcross i hi o ho) (Or.inl (hp i hi))

/-- A new cell joins cells that are apart: none of the inner ones is above the cell that it is put
below, and none of the outer ones is below a cell that it is put above. -/
theorem Interposes.areApart (h : Interposes up up' x q) {inner outer : List CellId}
    (hapart : AreApart up (inner ++ outer)) (hx : x ∉ inner ++ outer)
    (hinner : ∀ i ∈ inner, ¬IsUnder up q i)
    (houter : ∀ o ∈ outer, ∀ y, IsUnder up o y → up' y ≠ some x) :
    AreApart up' (inner ++ x :: outer) := by
  obtain ⟨hin, hout, hcross⟩ := List.pairwise_append.1 hapart
  have hne : ∀ c ∈ inner ++ outer, c ≠ x := fun c hc hcx => hx (hcx ▸ hc)
  have hne_inner : ∀ i ∈ inner, i ≠ x := fun i hi => hne i (List.mem_append_left _ hi)
  have hne_outer : ∀ o ∈ outer, o ≠ x := fun o ho => hne o (List.mem_append_right _ ho)
  refine List.pairwise_append.2 ⟨?_, List.pairwise_cons.2 ⟨?_, ?_⟩, ?_⟩
  · refine hin.imp_of_mem fun hi hi' hapart => ?_
    rwa [h.isUnder_iff (hne_inner _ hi') (hne_inner _ hi)]
  · intro o ho hox
    rcases (h.isUnder_cases hox).1 (hne_outer o ho) with hox | ⟨-, y, hy, hup⟩
    · exact hne_outer o ho (h.eq_of_isUnder_new hox)
    · exact houter o ho y hy hup
  · refine hout.imp_of_mem fun ho ho' hapart => ?_
    rwa [h.isUnder_iff (hne_outer _ ho') (hne_outer _ ho)]
  · intro i hi o ho
    rcases List.mem_cons.1 ho with rfl | ho
    · rw [h.isUnder_new (hne_inner i hi)]
      exact hinner i hi
    · rw [h.isUnder_iff (hne_outer o ho) (hne_inner i hi)]
      exact hcross i hi o ho

end SlimTemplate.Html
