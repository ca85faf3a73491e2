import SlimTemplate.Proofs.Repair.Confined
import SlimTemplate.Proofs.Writer.Row

/-!
# Rows at which no repair starts

A repair starts at a row because of its own text, or because the row has text and the next one is
deeper text. Rows are sheltered if neither happens to the writer's own rows among them, and their
ends fit any other sheltered rows: the first row is no deeper text, and text in the last row is
deep enough for what follows. So sheltered rows may be put side by side.

## Main definitions

* `Writer.IsExposed`: whether a repair may start at a row among others.
* `Repair.IsSheltered`: rows at which no repair starts, whatever stands around them.

## Main statements

* `Repair.IsSheltered.append`, `Repair.IsSheltered.nest`: rows side by side, and rows below others.
* `Repair.IsSheltered.isConfined`: repairs of sheltered rows start at exposed rows only.
-/

namespace SlimTemplate

namespace Writer

/-- A row as a line without a number. -/
def Row.line (row : Row) : Repair.NumberedLine :=
  ⟨0, row.text⟩

/-- The row at a place is not the writer's own line, or a deeper irregular one follows. -/
def IsExposed (rows : List Row) (i : Nat) : Prop :=
  ∃ row, rows[i]? = some row ∧ (row.kind ≠ .own ∨
    ∃ next, rows[i + 1]? = some next ∧ next.kind = .irregular ∧
      spacesBefore row.text < spacesBefore next.text)

end Writer

namespace Repair

open Writer

variable {margin : Nat} {row : Row} {rows a b : List Row}

/-- No text over several lines starts at a row because of the next one, or it may. -/
def IsQuietBefore (row next : Row) : Prop :=
  row.kind ≠ .own ∨ next.kind = .irregular ∨ headAndText? row.line.content = none ∨
    isTextBelow row.line.margin.length next.line = false

/-- No text that starts with a slash begins in a row, or it may. -/
def IsSlashless (row : Row) : Prop :=
  row.kind = .own →
    slashBehindHead? row.line.content = none ∧ isSlashText row.line.content = false

/-- Rows at which no repair starts unless it may, as long as what stands around them has the same
margin. -/
structure IsSheltered (margin : Nat) (rows : List Row) : Prop where
  slashless : ∀ row ∈ rows, IsSlashless row
  chain : rows.IsChain IsQuietBefore
  /-- The first row is not text below what stands before it. -/
  first : ∀ row ∈ rows.head?, row.kind = .irregular ∨ isTextBelow margin row.line = false
  /-- What follows is not text below the last row. -/
  last : ∀ row ∈ rows.getLast?, row.kind ≠ .own ∨ headAndText? row.line.content = none ∨
    margin ≤ row.line.margin.length

namespace IsSheltered

theorem nil (margin : Nat) : IsSheltered margin [] :=
  ⟨by simp, List.IsChain.nil, by simp, by simp⟩

theorem append (ha : IsSheltered margin a) (hb : IsSheltered margin b) :
    IsSheltered margin (a ++ b) := by
  refine ⟨?_, List.isChain_append.2 ⟨ha.chain, hb.chain, ?_⟩, ?_, ?_⟩
  · intro row hrow
    exact (List.mem_append.1 hrow).elim (ha.slashless row) (hb.slashless row)
  · -- At the joint the next row is no text deeper than the margin, which the row reaches.
    intro row hrow next hnext
    rcases ha.last row hrow with hkind | hnone | hle
    · exact Or.inl hkind
    · exact Or.inr (Or.inr (Or.inl hnone))
    · rcases hb.first next hnext with hnextKind | htext
      · exact Or.inr (Or.inl hnextKind)
      · exact Or.inr (Or.inr (Or.inr (isTextBelow_of_le htext hle)))
  · intro row hrow
    cases a with
    | nil => exact hb.first row hrow
    | cons first more => exact ha.first row hrow
  · intro row hrow
    cases b with
    | nil => exact ha.last row (by simpa using hrow)
    | cons first more =>
      rw [List.getLast?_append_of_ne_nil _ (List.cons_ne_nil first more)] at hrow
      exact hb.last row hrow

/-- Rows below others have a margin of their own. -/
theorem nest {margin' : Nat} (ha : ∀ margin', margin ≤ margin' → IsSheltered margin' a)
    (hne : a ≠ []) (hle : margin ≤ margin') (hb : IsSheltered margin' b) :
    IsSheltered margin (a ++ b) := by
  -- At the deeper margin the rows stand side by side; only the first one is seen from outside.
  have hall := (ha margin' hle).append hb
  refine ⟨hall.slashless, hall.chain, ?_, ?_⟩
  · intro row hrow
    rw [List.head?_append_of_ne_nil a hne] at hrow
    exact (ha margin le_rfl).first row hrow
  · intro row hrow
    exact (hall.last row hrow).imp_right (Or.imp_right hle.trans)

theorem flatMap {entries : List Entry} {f : Entry → List Row}
    (h : ∀ entry ∈ entries, IsSheltered margin (f entry)) :
    IsSheltered margin (entries.flatMap f) := by
  induction entries with
  | nil => exact nil margin
  | cons entry entries ih =>
    obtain ⟨hentry, hentries⟩ := List.forall_mem_cons.1 h
    rw [List.flatMap_cons]
    exact hentry.append (ih hentries)

end IsSheltered

theorem isChain_of_carriedOn (h : ∀ row ∈ rows, row.kind = .carriedOn) :
    rows.IsChain IsQuietBefore := by
  induction rows with
  | nil => exact List.IsChain.nil
  | cons row rows ih =>
    obtain ⟨hrow, hrows⟩ := List.forall_mem_cons.1 h
    exact List.isChain_cons.2 ⟨fun _ _ => Or.inl (by simp [hrow]), ih hrows⟩

/-- A row without text behind a head is sheltered together with the rows that carry it on. -/
theorem isSheltered_cons_carriedOn
    (htext : row.kind = .own → headAndText? row.line.content = none)
    (hslash : row.kind = .own → isSlashText row.line.content = false)
    (hfirst : row.kind = .irregular ∨ isTextBelow margin row.line = false)
    (hrows : ∀ row ∈ rows, row.kind = .carriedOn) : IsSheltered margin (row :: rows) := by
  have hmay : row.kind ≠ .own ∨ headAndText? row.line.content = none :=
    or_iff_not_imp_left.2 fun hkind => htext (not_not.1 hkind)
  refine ⟨?_, List.isChain_cons.2 ⟨?_, isChain_of_carriedOn hrows⟩, ?_, ?_⟩
  · refine List.forall_mem_cons.2 ⟨fun hkind => ?_, fun next hnext hkind => ?_⟩
    · exact ⟨slashBehindHead?_eq_none (htext hkind), hslash hkind⟩
    · exact absurd ((hrows next hnext).symm.trans hkind) (by decide)
  · intro next _
    exact hmay.imp_right fun hnone => Or.inr (Or.inl hnone)
  · intro first hfirst'
    obtain rfl := Option.some.inj hfirst'
    exact hfirst
  · intro last hlast
    rcases List.mem_cons.1 (List.mem_of_getLast? (Option.mem_def.1 hlast)) with rfl | hmem
    · exact hmay.imp_right Or.inl
    · exact Or.inl (by simp [hrows last hmem])

/-- A row with text behind its head is sheltered if it stands exactly at the margin. -/
theorem isSheltered_singleton (hslash : IsSlashless row)
    (hmargin : row.line.margin.length = margin) : IsSheltered margin [row] := by
  refine ⟨List.forall_mem_singleton.2 hslash, List.IsChain.singleton row, ?_, ?_⟩
  · intro first hfirst
    obtain rfl := Option.some.inj hfirst
    right
    simp [isTextBelow, hmargin]
  · intro last hlast
    obtain rfl := Option.some.inj hlast
    exact Or.inr (Or.inr hmargin.ge)

/-! ## Repairs of rows -/

theorem getElem?_numberFrom (number : Nat) (texts : List Text) (i : Nat) :
    (numberFrom number texts)[i]? = texts[i]?.map fun text => ⟨number + i, text⟩ := by
  induction texts generalizing number i with
  | nil => rfl
  | cons text texts ih =>
    cases i with
    | zero => rfl
    | succ i =>
      rw [numberFrom, List.getElem?_cons_succ, ih, List.getElem?_cons_succ, Nat.add_right_comm,
        Nat.add_assoc]

/-- The lines as which rows are read. -/
def linesOf (rows : List Row) : List NumberedLine :=
  numberFrom 1 ((rows.map (·.text)).map Text.dropFinalReturn)

theorem getElem?_linesOf (rows : List Row) (i : Nat) :
    (linesOf rows)[i]? = rows[i]?.map fun row => ⟨1 + i, Text.dropFinalReturn row.text⟩ := by
  rw [linesOf, getElem?_numberFrom, List.getElem?_map, List.getElem?_map, Option.map_map,
    Option.map_map]
  rfl

theorem content_dropFinalReturn (number : Nat) (row : Row) :
    (NumberedLine.mk number (Text.dropFinalReturn row.text)).content = row.line.content :=
  Text.trim_dropFinalReturn row.text

theorem length_margin_dropFinalReturn (number : Nat) (row : Row) :
    (NumberedLine.mk number (Text.dropFinalReturn row.text)).margin.length =
      row.line.margin.length :=
  spacesBefore_dropFinalReturn row.text

theorem isTextBelow_dropFinalReturn (depth number : Nat) (row : Row) :
    isTextBelow depth ⟨number, Text.dropFinalReturn row.text⟩ = isTextBelow depth row.line := by
  rw [isTextBelow, isTextBelow, content_dropFinalReturn, length_margin_dropFinalReturn]

/-- Repairs of sheltered rows start at exposed rows only. -/
theorem IsSheltered.isConfined (h : IsSheltered margin rows) :
    IsConfined (fun number => ∃ i, number = i + 1 ∧ IsExposed rows i) (linesOf rows) := by
  refine ⟨?_, List.isChain_iff_getElem.2 ?_⟩
  · intro line hline
    obtain ⟨i, hi⟩ := List.mem_iff_getElem?.1 hline
    rw [getElem?_linesOf] at hi
    obtain ⟨row, hrow, rfl⟩ := Option.map_eq_some_iff.1 hi
    rw [content_dropFinalReturn]
    by_cases hkind : row.kind = .own
    · exact Or.inr (h.slashless row (List.mem_of_getElem? hrow) hkind)
    · exact Or.inl ⟨i, Nat.add_comm 1 i, row, hrow, Or.inl hkind⟩
  · intro i hi
    have hfirst := List.getElem?_eq_getElem (Nat.lt_of_succ_lt hi)
    have hsecond := List.getElem?_eq_getElem hi
    rw [getElem?_linesOf] at hfirst hsecond
    obtain ⟨row, hrow, hline⟩ := Option.map_eq_some_iff.1 hfirst
    obtain ⟨next, hnext, hline'⟩ := Option.map_eq_some_iff.1 hsecond
    rw [← hline, ← hline', content_dropFinalReturn, length_margin_dropFinalReturn,
      isTextBelow_dropFinalReturn]
    obtain ⟨hlt, hget⟩ := List.getElem?_eq_some_iff.1 hrow
    obtain ⟨hlt', hget'⟩ := List.getElem?_eq_some_iff.1 hnext
    have hquiet := List.isChain_iff_getElem.1 h.chain i hlt'
    rw [hget, hget'] at hquiet
    -- An irregular row that is no deeper is no text below the row before it.
    rcases hquiet with hkind | hkind | hquiet
    · exact Or.inl ⟨i, Nat.add_comm 1 i, row, hrow, Or.inl hkind⟩
    · by_cases hdeeper : spacesBefore row.text < spacesBefore next.text
      · exact Or.inl ⟨i, Nat.add_comm 1 i, row, hrow, Or.inr ⟨next, hnext, hkind, hdeeper⟩⟩
      · refine Or.inr (Or.inr ?_)
        rw [isTextBelow, Bool.and_eq_false_iff]
        exact Or.inl (decide_eq_false hdeeper)
    · exact Or.inr hquiet

end Repair

end SlimTemplate
