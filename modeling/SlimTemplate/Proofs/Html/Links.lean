import Mathlib.Data.List.Nodup
import SlimTemplate.Html.Arena

/-!
# Links between cells

A cell knows its parent, and a parent knows its children in order. Both kinds of links say the same
in every store that is built by the operations of `Html.Arena`, and each operation changes the
links of the cells that it moves and no others.

## Main definitions

* `Html.Arena.content?`: what a cell stands for.
* `Html.Arena.IsLinked`: parents and children agree.

## Main statements

* `Html.Arena.parent?_append`, `Html.Arena.parent?_insertBefore`, `Html.Arena.parent?_moveChildren`:
  the parents after a move.
* `Html.Arena.IsLinked.append`, `Html.Arena.IsLinked.insertBefore`,
  `Html.Arena.IsLinked.moveChildren`: moves keep parents and children in agreement.
-/

namespace SlimTemplate.Html.Arena

/-- What a cell stands for. -/
def content? (a : Arena) (id : CellId) : Option Content :=
  a.cells[id]?.map Cell.content

/-- The number of cells. -/
def size (a : Arena) : Nat :=
  a.cells.size

/-- Parents and children agree, and no cell is a child twice. -/
structure IsLinked (a : Arena) : Prop where
  mem_iff : ∀ p c, c ∈ a.reversedChildren p ↔ a.parent? c = some p
  nodup : ∀ p, (a.reversedChildren p).Nodup

variable {a : Arena} {p c id : CellId}

theorem content?_isSome_iff : (a.content? id).isSome = true ↔ id < a.size := by
  rw [content?, Option.isSome_map, size]
  simp

theorem lt_size_of_content? {content : Content} (h : a.content? id = some content) :
    id < a.size :=
  content?_isSome_iff.1 (by rw [h]; rfl)

theorem lt_size_of_parent? (h : a.parent? id = some p) : id < a.size := by
  obtain ⟨cell, hcell, -⟩ := Option.bind_eq_some_iff.1 h
  exact (Array.getElem?_eq_some_iff.1 hcell).1

theorem lt_size_of_mem_reversedChildren (h : c ∈ a.reversedChildren p) : p < a.size := by
  by_contra hp
  have hnone : a.cells[p]? = none := Array.getElem?_eq_none (Nat.le_of_not_lt hp)
  simp [reversedChildren, hnone] at h

theorem IsLinked.lt_size (h : a.IsLinked) (hparent : a.parent? c = some p) : p < a.size :=
  lt_size_of_mem_reversedChildren ((h.mem_iff p c).2 hparent)

/-! ## Single cells -/

section Modify

variable (a : Arena) (id : CellId) (f : Cell → Cell)

theorem getElem?_modify (j : CellId) :
    (a.modify id f).cells[j]? = if id = j then a.cells[j]?.map f else a.cells[j]? := by
  rw [modify, Array.getElem?_modify]

@[simp] theorem size_modify : (a.modify id f).size = a.size :=
  Array.size_modify

variable {f}

theorem content?_modify (hf : ∀ cell, (f cell).content = cell.content) (j : CellId) :
    (a.modify id f).content? j = a.content? j := by
  rw [content?, getElem?_modify, content?]
  split
  · cases a.cells[j]? with
    | none => rfl
    | some cell => exact congrArg some (hf cell)
  · rfl

theorem parent?_modify (hf : ∀ cell, (f cell).parent = cell.parent) (j : CellId) :
    (a.modify id f).parent? j = a.parent? j := by
  rw [parent?, getElem?_modify, parent?]
  split
  · cases a.cells[j]? with
    | none => rfl
    | some cell => exact hf cell
  · rfl

theorem reversedChildren_modify (hf : ∀ cell, (f cell).reversed = cell.reversed) (j : CellId) :
    (a.modify id f).reversedChildren j = a.reversedChildren j := by
  rw [reversedChildren, getElem?_modify, reversedChildren]
  split
  · cases a.cells[j]? with
    | none => rfl
    | some cell => exact hf cell
  · rfl

end Modify

/-- Gives a cell another parent. -/
def setParent (a : Arena) (id : CellId) (parent : Option CellId) : Arena :=
  a.modify id fun cell => { cell with parent }

/-- Changes the children of a cell. -/
def mapReversed (a : Arena) (id : CellId) (f : List CellId → List CellId) : Arena :=
  a.modify id fun cell => { cell with reversed := f cell.reversed }

section SetParent

variable (a : Arena) (id : CellId) (q : Option CellId) (j : CellId)

@[simp] theorem size_setParent : (a.setParent id q).size = a.size :=
  size_modify a id _

@[simp] theorem content?_setParent : (a.setParent id q).content? j = a.content? j := by
  rw [setParent, content?_modify]
  exact fun _ => rfl

@[simp] theorem reversedChildren_setParent :
    (a.setParent id q).reversedChildren j = a.reversedChildren j := by
  rw [setParent, reversedChildren_modify]
  exact fun _ => rfl

theorem parent?_setParent (hid : id < a.size) :
    (a.setParent id q).parent? j = if j = id then q else a.parent? j := by
  rw [setParent, parent?, getElem?_modify]
  by_cases hj : j = id
  · rw [if_pos hj.symm, if_pos hj, hj, Array.getElem?_eq_getElem hid]
    rfl
  · rw [if_neg (Ne.symm hj), if_neg hj, parent?]

end SetParent

section MapReversed

variable (a : Arena) (id : CellId) (f : List CellId → List CellId) (j : CellId)

@[simp] theorem size_mapReversed : (a.mapReversed id f).size = a.size :=
  size_modify a id _

@[simp] theorem content?_mapReversed : (a.mapReversed id f).content? j = a.content? j := by
  rw [mapReversed, content?_modify]
  exact fun _ => rfl

@[simp] theorem parent?_mapReversed : (a.mapReversed id f).parent? j = a.parent? j := by
  rw [mapReversed, parent?_modify]
  exact fun _ => rfl

theorem reversedChildren_mapReversed (hid : id < a.size) :
    (a.mapReversed id f).reversedChildren j =
      if j = id then f (a.reversedChildren id) else a.reversedChildren j := by
  rw [mapReversed, reversedChildren, getElem?_modify]
  by_cases hj : j = id
  · rw [if_pos hj.symm, if_pos hj, hj, reversedChildren, Array.getElem?_eq_getElem hid]
    rfl
  · rw [if_neg (Ne.symm hj), if_neg hj, reversedChildren]

end MapReversed

/-! ## A new cell -/

section Add

variable (a : Arena) (content : Content) (j : CellId)

@[simp] theorem size_add : (a.add content).2.size = a.size + 1 :=
  Array.size_push _

theorem getElem?_add :
    (a.add content).2.cells[j]? =
      if j = a.size then some ⟨content, none, []⟩ else a.cells[j]? :=
  Array.getElem?_push

theorem content?_add :
    (a.add content).2.content? j = if j = a.size then some content else a.content? j := by
  rw [content?, getElem?_add, content?]
  split <;> rfl

theorem getElem?_size : a.cells[a.size]? = none :=
  Array.getElem?_eq_none (Nat.le_refl _)

@[simp] theorem parent?_add : (a.add content).2.parent? j = a.parent? j := by
  rw [parent?, getElem?_add, parent?]
  split
  · next hj =>
    rw [hj, getElem?_size]
    rfl
  · rfl

@[simp] theorem reversedChildren_add :
    (a.add content).2.reversedChildren j = a.reversedChildren j := by
  rw [reversedChildren, getElem?_add, reversedChildren]
  split
  · next hj =>
    rw [hj, getElem?_size]
    rfl
  · rfl

/-- A cell that is not there yet has no parent. -/
theorem parent?_size : a.parent? a.size = none := by
  rw [parent?, getElem?_size]
  rfl

end Add

theorem IsLinked.add (h : a.IsLinked) (content : Content) : (a.add content).2.IsLinked where
  mem_iff p c := by rw [reversedChildren_add, parent?_add, h.mem_iff]
  nodup p := by rw [reversedChildren_add]; exact h.nodup p

/-! ## Taking a cell out of its parent -/

theorem detach_of_parent? (h : a.parent? id = some p) :
    a.detach id = (a.mapReversed p (·.filter (· ≠ id))).setParent id none := by
  rw [detach, h]
  rfl

theorem detach_of_parent?_eq_none (h : a.parent? id = none) : a.detach id = a := by
  rw [detach, h]

@[simp] theorem size_detach (a : Arena) (id : CellId) : (a.detach id).size = a.size := by
  cases h : a.parent? id with
  | none => rw [detach_of_parent?_eq_none h]
  | some p => rw [detach_of_parent? h, size_setParent, size_mapReversed]

@[simp] theorem content?_detach (a : Arena) (id j : CellId) :
    (a.detach id).content? j = a.content? j := by
  cases h : a.parent? id with
  | none => rw [detach_of_parent?_eq_none h]
  | some p => rw [detach_of_parent? h, content?_setParent, content?_mapReversed]

theorem parent?_detach (a : Arena) (id j : CellId) :
    (a.detach id).parent? j = if j = id then none else a.parent? j := by
  cases h : a.parent? id with
  | none =>
    rw [detach_of_parent?_eq_none h]
    split
    · next hj => rw [hj, h]
    · rfl
  | some p =>
    have hid : id < (a.mapReversed p (·.filter (· ≠ id))).size := by
      rw [size_mapReversed]
      exact lt_size_of_parent? h
    rw [detach_of_parent? h, parent?_setParent _ _ _ _ hid, parent?_mapReversed]

/-- A list of children without a cell that is no child. -/
theorem IsLinked.filter_reversedChildren (h : a.IsLinked) (hid : a.parent? id ≠ some p) :
    (a.reversedChildren p).filter (· ≠ id) = a.reversedChildren p := by
  rw [List.filter_eq_self]
  intro c hc
  rw [h.mem_iff] at hc
  rw [decide_eq_true_eq]
  rintro rfl
  exact hid hc

theorem reversedChildren_detach (h : a.IsLinked) (id j : CellId) :
    (a.detach id).reversedChildren j = (a.reversedChildren j).filter (· ≠ id) := by
  cases hp : a.parent? id with
  | none => rw [detach_of_parent?_eq_none hp, h.filter_reversedChildren (by simp [hp])]
  | some p =>
    rw [detach_of_parent? hp, reversedChildren_setParent,
      reversedChildren_mapReversed _ _ _ _ (h.lt_size hp)]
    split
    · next hj => rw [hj]
    · next hj =>
      rw [h.filter_reversedChildren]
      rw [hp, Ne, Option.some.injEq]
      exact Ne.symm hj

/-! ## Moving a cell to the end of another's children -/

theorem append_eq (a : Arena) (p c : CellId) :
    a.append p c = ((a.detach c).mapReversed p (c :: ·)).setParent c (some p) :=
  rfl

@[simp] theorem size_append (a : Arena) (p c : CellId) : (a.append p c).size = a.size := by
  rw [append_eq, size_setParent, size_mapReversed, size_detach]

@[simp] theorem content?_append (a : Arena) (p c j : CellId) :
    (a.append p c).content? j = a.content? j := by
  rw [append_eq, content?_setParent, content?_mapReversed, content?_detach]

theorem parent?_append (hc : c < a.size) (p j : CellId) :
    (a.append p c).parent? j = if j = c then some p else a.parent? j := by
  have hsize : c < ((a.detach c).mapReversed p (c :: ·)).size := by
    rwa [size_mapReversed, size_detach]
  rw [append_eq, parent?_setParent _ _ _ _ hsize, parent?_mapReversed, parent?_detach]
  split <;> rfl

theorem reversedChildren_append (h : a.IsLinked) (hp : p < a.size) (c j : CellId) :
    (a.append p c).reversedChildren j =
      if j = p then c :: (a.reversedChildren p).filter (· ≠ c)
      else (a.reversedChildren j).filter (· ≠ c) := by
  have hsize : p < (a.detach c).size := by rwa [size_detach]
  rw [append_eq, reversedChildren_setParent, reversedChildren_mapReversed _ _ _ _ hsize,
    reversedChildren_detach h, reversedChildren_detach h]

theorem IsLinked.append (h : a.IsLinked) (hp : p < a.size) (hc : c < a.size) :
    (a.append p c).IsLinked where
  mem_iff q d := by
    rw [reversedChildren_append h hp, parent?_append hc]
    by_cases hd : d = c
    · by_cases hq : q = p
      · simp [hq, hd]
      · simp [hq, hd, Ne.symm hq]
    · by_cases hq : q = p
      · simp [hq, hd, h.mem_iff]
      · simp [hq, hd, h.mem_iff]
  nodup q := by
    rw [reversedChildren_append h hp]
    split
    · exact List.nodup_cons.2 ⟨by simp, (h.nodup p).filter _⟩
    · exact (h.nodup q).filter _

/-! ## Moving a cell before another -/

theorem mem_insertAfter {mark new d : CellId} {ids : List CellId} :
    d ∈ insertAfter mark new ids ↔ d = new ∨ d ∈ ids := by
  induction ids with
  | nil => simp [insertAfter]
  | cons id ids ih =>
    rw [insertAfter]
    split
    · simp only [List.mem_cons]
      rw [or_left_comm]
    · simp only [List.mem_cons, ih]
      rw [or_left_comm]

theorem nodup_insertAfter {mark new : CellId} {ids : List CellId} (h : ids.Nodup)
    (hnew : new ∉ ids) : (insertAfter mark new ids).Nodup := by
  induction ids with
  | nil => exact List.nodup_singleton new
  | cons id ids ih =>
    obtain ⟨hid, hids⟩ := List.nodup_cons.1 h
    obtain ⟨hne, hmem⟩ := not_or.1 (mt List.mem_cons.2 hnew)
    rw [insertAfter]
    split
    · refine List.nodup_cons.2 ⟨?_, List.nodup_cons.2 ⟨hmem, hids⟩⟩
      rw [List.mem_cons, not_or]
      exact ⟨Ne.symm hne, hid⟩
    · refine List.nodup_cons.2 ⟨?_, ih hids hmem⟩
      rw [mem_insertAfter, not_or]
      exact ⟨Ne.symm hne, hid⟩

theorem insertBefore_of_parent? {mark : CellId} (h : (a.detach c).parent? mark = some p) :
    a.insertBefore mark c =
      ((a.detach c).mapReversed p (insertAfter mark c)).setParent c (some p) := by
  simp only [insertBefore, h]
  rfl

@[simp] theorem size_insertBefore (a : Arena) (mark c : CellId) :
    (a.insertBefore mark c).size = a.size := by
  cases h : (a.detach c).parent? mark with
  | none => simp only [insertBefore, h, size_detach]
  | some p => rw [insertBefore_of_parent? h, size_setParent, size_mapReversed, size_detach]

@[simp] theorem content?_insertBefore (a : Arena) (mark c j : CellId) :
    (a.insertBefore mark c).content? j = a.content? j := by
  cases h : (a.detach c).parent? mark with
  | none => simp only [insertBefore, h, content?_detach]
  | some p =>
    rw [insertBefore_of_parent? h, content?_setParent, content?_mapReversed, content?_detach]

section InsertBefore

variable {mark : CellId} (hne : mark ≠ c) (hmark : a.parent? mark = some p)

include hne hmark

theorem parent?_detach_mark : (a.detach c).parent? mark = some p := by
  rw [parent?_detach, if_neg hne, hmark]

theorem parent?_insertBefore (hc : c < a.size) (j : CellId) :
    (a.insertBefore mark c).parent? j = if j = c then some p else a.parent? j := by
  have hsize : c < ((a.detach c).mapReversed p (insertAfter mark c)).size := by
    rwa [size_mapReversed, size_detach]
  rw [insertBefore_of_parent? (parent?_detach_mark hne hmark), parent?_setParent _ _ _ _ hsize,
    parent?_mapReversed, parent?_detach]
  split <;> rfl

theorem reversedChildren_insertBefore (h : a.IsLinked) (j : CellId) :
    (a.insertBefore mark c).reversedChildren j =
      if j = p then insertAfter mark c ((a.reversedChildren p).filter (· ≠ c))
      else (a.reversedChildren j).filter (· ≠ c) := by
  have hsize : p < (a.detach c).size := by
    rw [size_detach]
    exact h.lt_size hmark
  rw [insertBefore_of_parent? (parent?_detach_mark hne hmark), reversedChildren_setParent,
    reversedChildren_mapReversed _ _ _ _ hsize, reversedChildren_detach h,
    reversedChildren_detach h]

theorem IsLinked.insertBefore (h : a.IsLinked) (hc : c < a.size) :
    (a.insertBefore mark c).IsLinked where
  mem_iff q d := by
    rw [reversedChildren_insertBefore hne hmark h, parent?_insertBefore hne hmark hc]
    by_cases hd : d = c
    · by_cases hq : q = p
      · simp [hq, hd, mem_insertAfter]
      · simp [hq, hd, Ne.symm hq]
    · by_cases hq : q = p
      · simp [hq, hd, mem_insertAfter, h.mem_iff]
      · simp [hq, hd, h.mem_iff]
  nodup q := by
    rw [reversedChildren_insertBefore hne hmark h]
    split
    · exact nodup_insertAfter ((h.nodup p).filter _) (by simp)
    · exact (h.nodup q).filter _

end InsertBefore

/-! ## Moving all children of a cell -/

section MoveChildren

variable {children : List CellId}

theorem size_foldl_append (a : Arena) (p : CellId) (children : List CellId) :
    (children.foldl (fun a child => a.append p child) a).size = a.size := by
  induction children generalizing a with
  | nil => rfl
  | cons c children ih => rw [List.foldl_cons, ih, size_append]

theorem content?_foldl_append (a : Arena) (p : CellId) (children : List CellId) (j : CellId) :
    (children.foldl (fun a child => a.append p child) a).content? j = a.content? j := by
  induction children generalizing a with
  | nil => rfl
  | cons c children ih => rw [List.foldl_cons, ih, content?_append]

theorem parent?_foldl_append (hchildren : ∀ c ∈ children, c < a.size) (p j : CellId) :
    (children.foldl (fun a child => a.append p child) a).parent? j =
      if j ∈ children then some p else a.parent? j := by
  induction children generalizing a with
  | nil => rfl
  | cons c children ih =>
    obtain ⟨hc, hrest⟩ := List.forall_mem_cons.1 hchildren
    have hrest' : ∀ d ∈ children, d < (a.append p c).size := by
      intro d hd
      rw [size_append]
      exact hrest d hd
    rw [List.foldl_cons, ih hrest', parent?_append hc]
    by_cases hj : j ∈ children
    · simp [hj]
    · by_cases hjc : j = c <;> simp [hj, hjc]

theorem IsLinked.foldl_append (h : a.IsLinked) (hp : p < a.size)
    (hchildren : ∀ c ∈ children, c < a.size) :
    (children.foldl (fun a child => a.append p child) a).IsLinked := by
  induction children generalizing a with
  | nil => exact h
  | cons c children ih =>
    obtain ⟨hc, hrest⟩ := List.forall_mem_cons.1 hchildren
    refine ih (h.append hp hc) ?_ ?_
    · rwa [size_append]
    · intro d hd
      rw [size_append]
      exact hrest d hd

end MoveChildren

theorem IsLinked.children_lt_size (h : a.IsLinked) (source : CellId) :
    ∀ c ∈ (a.reversedChildren source).reverse, c < a.size := by
  intro c hc
  exact lt_size_of_parent? ((h.mem_iff source c).1 (List.mem_reverse.1 hc))

@[simp] theorem size_moveChildren (a : Arena) (source target : CellId) :
    (a.moveChildren source target).size = a.size :=
  size_foldl_append a target _

@[simp] theorem content?_moveChildren (a : Arena) (source target j : CellId) :
    (a.moveChildren source target).content? j = a.content? j :=
  content?_foldl_append a target _ j

theorem parent?_moveChildren (h : a.IsLinked) (source target j : CellId) :
    (a.moveChildren source target).parent? j =
      if a.parent? j = some source then some target else a.parent? j := by
  rw [moveChildren, parent?_foldl_append (h.children_lt_size source)]
  simp only [List.mem_reverse, h.mem_iff]

theorem IsLinked.moveChildren (h : a.IsLinked) (source : CellId) {target : CellId}
    (htarget : target < a.size) : (a.moveChildren source target).IsLinked :=
  h.foldl_append htarget (h.children_lt_size source)

end SlimTemplate.Html.Arena
