import SlimTemplate.Proofs.Extraction.Orphan
import SlimTemplate.Proofs.Line.Render

/-!
# What is written of a tree, read again

Chosen lines that are written out and read again form a tree of their own. Its levels are all
lower by the same number, so the parent of a line in it is the nearest line before it that is
chosen and shallower.

## Main definitions

* `LineTree.IsCutout`: a tree that consists of the lines at places of another.

## Main statements

* `LineTree.isCutout_render`: rendered lines are read again as a cutout.
* `LineTree.IsCutout.parent?_eq_some_iff`, `LineTree.IsCutout.parent?_eq_none_iff`: the parents in
  a cutout.
* `LineTree.IsCutout.levelAt_eq_zero_iff`: the lines at the margin of a cutout.
-/

namespace SlimTemplate.LineTree

open SlimLine

variable {again tree : LineTree} {places : List Nat} {i j k m p : Nat}

/-- A tree consists of the lines at places of another, with levels counted from the least. -/
structure IsCutout (again tree : LineTree) (places : List Nat) : Prop where
  choice : tree.IsChoice places
  lines_eq : again.lines.map (fun line => (line.content, line.kind, line.level)) =
    (tree.linesAt places).map fun line =>
      (line.content, line.kind, line.level - baseLevel (tree.linesAt places))

/-- Lines of a source that are written out are read again as a cutout. -/
theorem isCutout_render {layout : Layout} {source : Text}
    (h : (LineTree.ofSource layout source).IsChoice places) :
    IsCutout
      (LineTree.ofSource layout
        (render layout ((LineTree.ofSource layout source).linesAt places) ++ ['\n']))
      (LineTree.ofSource layout source) places :=
  ⟨h, ofSource_render layout fun _ hline => isRead_of_mem_ofSource (mem_of_mem_linesAt hline)⟩

namespace IsCutout

theorem map_getElem? (h : again.IsCutout tree places) (k : Nat) :
    again.lines[k]?.map (fun line => (line.content, line.kind, line.level)) =
      (places[k]?.bind (tree.lines[·]?)).map fun line =>
        (line.content, line.kind, line.level - baseLevel (tree.linesAt places)) := by
  rw [← getElem?_linesAt h.choice, ← List.getElem?_map, ← List.getElem?_map, h.lines_eq]

theorem lt_length (h : again.IsCutout tree places) (hk : places[k]? = some i) :
    k < again.lines.length := by
  have hi := h.choice.inside i (List.mem_of_getElem? hk)
  have hget := h.map_getElem? k
  rw [hk, Option.bind_some, List.getElem?_eq_getElem hi] at hget
  obtain ⟨line, hline, -⟩ := Option.map_eq_some_iff.1 hget
  exact (List.getElem?_eq_some_iff.1 hline).1

theorem exists_place (h : again.IsCutout tree places) (hk : k < again.lines.length) :
    ∃ i, places[k]? = some i := by
  have hget := h.map_getElem? k
  rw [List.getElem?_eq_getElem hk, Option.map_some] at hget
  obtain ⟨line, hline, -⟩ := Option.map_eq_some_iff.1 hget.symm
  obtain ⟨i, hi, -⟩ := Option.bind_eq_some_iff.1 hline
  exact ⟨i, hi⟩

/-- A line is lower by the least level of all chosen lines. -/
theorem levelAt_eq (h : again.IsCutout tree places) (hk : places[k]? = some i) :
    again.levelAt k = tree.levelAt i - baseLevel (tree.linesAt places) := by
  have hi := h.choice.inside i (List.mem_of_getElem? hk)
  have hget := h.map_getElem? k
  rw [hk, Option.bind_some, List.getElem?_eq_getElem hi] at hget
  obtain ⟨line, hline, hview⟩ := Option.map_eq_some_iff.1 hget
  rw [levelAt_of_getElem? hline, levelAt_of_getElem? (List.getElem?_eq_getElem hi)]
  exact congrArg (fun view => view.2.2) hview

theorem baseLevel_le_levelAt (h : again.IsCutout tree places) (hi : i ∈ places) :
    baseLevel (tree.linesAt places) ≤ tree.levelAt i := by
  have hline := List.getElem?_eq_getElem (h.choice.inside i hi)
  rw [levelAt_of_getElem? hline]
  exact baseLevel_le (List.mem_filterMap.2 ⟨i, hi, hline⟩)

theorem levelAt_le_iff (h : again.IsCutout tree places) (hk : places[k]? = some i)
    (hj : places[j]? = some p) :
    again.levelAt k ≤ again.levelAt j ↔ tree.levelAt i ≤ tree.levelAt p := by
  have hi := h.baseLevel_le_levelAt (List.mem_of_getElem? hk)
  have hp := h.baseLevel_le_levelAt (List.mem_of_getElem? hj)
  rw [h.levelAt_eq hk, h.levelAt_eq hj]
  omega

theorem lt_iff (h : again.IsCutout tree places) (hk : places[k]? = some i)
    (hj : places[j]? = some p) : j < k ↔ p < i :=
  h.choice.lt_iff hj hk

/-- The parent of a line is the nearest chosen line before it that is shallower. -/
theorem parent?_eq_some_iff (h : again.IsCutout tree places) (hk : places[k]? = some i)
    (hj : places[j]? = some p) : again.parent? k = some j ↔
      p < i ∧ tree.levelAt p < tree.levelAt i ∧
        ∀ m ∈ places, p < m → m < i → tree.levelAt i ≤ tree.levelAt m := by
  have hlevel := not_congr (h.levelAt_le_iff hk hj)
  rw [Nat.not_le, Nat.not_le] at hlevel
  rw [LineTree.parent?_eq_some_iff, and_iff_right (h.lt_length hk), h.lt_iff hk hj, hlevel]
  apply and_congr_right
  intro _
  apply and_congr_right
  intro _
  -- The lines between two of the cutout are the chosen ones between their places.
  constructor
  · intro hbetween m hm hpm hmi
    obtain ⟨l, hl⟩ := List.mem_iff_getElem?.1 hm
    exact (h.levelAt_le_iff hk hl).1
      (hbetween l ((h.lt_iff hl hj).2 hpm) ((h.lt_iff hk hl).2 hmi))
  · intro hbetween l hjl hlk
    obtain ⟨m, hm⟩ := h.exists_place (hlk.trans (h.lt_length hk))
    exact (h.levelAt_le_iff hk hm).2 (hbetween m (List.mem_of_getElem? hm)
      ((h.lt_iff hm hj).1 hjl) ((h.lt_iff hk hm).1 hlk))

/-- A line has no parent exactly if no chosen line before it is shallower. -/
theorem parent?_eq_none_iff (h : again.IsCutout tree places) (hk : places[k]? = some i) :
    again.parent? k = none ↔ ∀ m ∈ places, m < i → tree.levelAt i ≤ tree.levelAt m := by
  rw [LineTree.parent?_eq_none_iff (h.lt_length hk)]
  constructor
  · intro hbefore m hm hmi
    obtain ⟨l, hl⟩ := List.mem_iff_getElem?.1 hm
    exact (h.levelAt_le_iff hk hl).1 (hbefore l ((h.lt_iff hk hl).2 hmi))
  · intro hbefore l hlk
    obtain ⟨m, hm⟩ := h.exists_place (hlk.trans (h.lt_length hk))
    exact (h.levelAt_le_iff hk hm).2
      (hbefore m (List.mem_of_getElem? hm) ((h.lt_iff hk hm).1 hlk))

/-- A line stands at the margin exactly if no chosen line is shallower. -/
theorem levelAt_eq_zero_iff (h : again.IsCutout tree places) (hk : places[k]? = some i) :
    again.levelAt k = 0 ↔ ∀ m ∈ places, tree.levelAt i ≤ tree.levelAt m := by
  have hi := List.mem_of_getElem? hk
  have hline := List.getElem?_eq_getElem (h.choice.inside i hi)
  rw [h.levelAt_eq hk]
  constructor
  · intro hzero m hm
    have := h.baseLevel_le_levelAt hm
    omega
  · intro hleast
    -- Some chosen line has the least level, and this one is no deeper.
    have hne : tree.linesAt places ≠ [] :=
      List.ne_nil_of_mem (List.mem_filterMap.2 ⟨i, hi, hline⟩)
    obtain ⟨least, hmem, hlevel⟩ := exists_level_eq_baseLevel hne
    obtain ⟨m, hm, hget⟩ := List.mem_filterMap.1 hmem
    have := hleast m hm
    rw [levelAt_of_getElem? hget] at this
    omega

/-- A parent that is chosen stays the parent. -/
theorem parent?_of_parent? (h : again.IsCutout tree places) (hk : places[k]? = some i)
    (hparent : tree.parent? i = some p) (hp : p ∈ places) :
    ∃ j, places[j]? = some p ∧ again.parent? k = some j := by
  obtain ⟨-, hpi, hlevel, hbetween⟩ := LineTree.parent?_eq_some_iff.1 hparent
  obtain ⟨j, hj⟩ := List.mem_iff_getElem?.1 hp
  exact ⟨j, hj, (h.parent?_eq_some_iff hk hj).2 ⟨hpi, hlevel, fun m _ => hbetween m⟩⟩

/-- A line without a parent does not get one. -/
theorem parent?_eq_none (h : again.IsCutout tree places) (hk : places[k]? = some i)
    (hparent : tree.parent? i = none) : again.parent? k = none := by
  have hi := h.choice.inside i (List.mem_of_getElem? hk)
  rw [h.parent?_eq_none_iff hk]
  exact fun m _ => (LineTree.parent?_eq_none_iff hi).1 hparent m

end IsCutout

end SlimTemplate.LineTree
