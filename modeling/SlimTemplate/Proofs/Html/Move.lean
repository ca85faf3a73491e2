import SlimTemplate.Proofs.Html.Standing

/-!
# Cells that move

A cell that is already in the tree moves to another place, a new cell takes in one that is there,
and a new cell takes over all that another one holds. Each of these changes is described by the
links that it leaves, and leaves a sound store sound.

## Main definitions

* `Html.Arena.put`: a cell put at a place.
* `Html.Arena.Wraps`, `Html.Arena.TakesOver`: the links after a new cell has taken in others.

## Main statements

* `Html.Arena.HasPlace.put_wrap`: what is made around a cell before it is put somewhere may as well
  be made there.
* `Html.Arena.IsSound.relocate`, `Html.Arena.IsSound.takeOver`: sound stores stay sound.
-/

namespace SlimTemplate.Html

open Builder (Place)

/-! ## A cell put at a place -/

/-- A list of children, the last one first, with a cell put in at a place. -/
def Builder.Place.add (c : CellId) : Place → List CellId → List CellId
  | .inside _, ids => c :: ids
  | .before sibling, ids => Arena.insertAfter sibling c ids

namespace Arena

variable {a a' : Arena} {c d p x y j : CellId} {place : Place}

/-- Puts a cell at a place. -/
def put (a : Arena) (c : CellId) : Place → Arena
  | .inside p => a.append p c
  | .before sibling => a.insertBefore sibling c

/-- Two stores are equal if they say the same of every cell. -/
theorem eq_of_links (hsize : a.size = a'.size) (hcontent : ∀ j, a.content? j = a'.content? j)
    (hparent : ∀ j, a.parent? j = a'.parent? j)
    (hchildren : ∀ j, a.reversedChildren j = a'.reversedChildren j) : a = a' := by
  obtain ⟨cells⟩ := a
  obtain ⟨cells'⟩ := a'
  refine congrArg Arena.mk (Array.ext hsize fun j hj hj' => ?_)
  have hget : cells[j]? = some cells[j] := Array.getElem?_eq_getElem hj
  have hget' : cells'[j]? = some cells'[j] := Array.getElem?_eq_getElem hj'
  have hcontent := hcontent j
  have hparent := hparent j
  have hchildren := hchildren j
  simp only [content?, hget, hget', Option.map_some, Option.some.injEq] at hcontent
  simp only [parent?, hget, hget', Option.bind_some] at hparent
  simp only [reversedChildren, hget, hget', Option.map_some, Option.getD_some] at hchildren
  generalize cells[j] = cell at hcontent hparent hchildren
  generalize cells'[j] = cell' at hcontent hparent hchildren
  obtain ⟨content, parent, reversed⟩ := cell
  obtain ⟨content', parent', reversed'⟩ := cell'
  obtain rfl : content = content' := hcontent
  obtain rfl : parent = parent' := hparent
  obtain rfl : reversed = reversed' := hchildren
  rfl

theorem detach_detach (a : Arena) (c : CellId) : (a.detach c).detach c = a.detach c := by
  refine detach_of_parent?_eq_none ?_
  rw [parent?_detach, if_pos rfl]

/-- A cell leaves its parent before it is put somewhere. -/
theorem put_detach (a : Arena) (c : CellId) (place : Place) :
    (a.detach c).put c place = a.put c place := by
  cases place with
  | inside p => simp only [put, append, detach_detach]
  | before sibling => simp only [put, insertBefore, detach_detach]

@[simp] theorem size_put (a : Arena) (c : CellId) (place : Place) :
    (a.put c place).size = a.size := by
  cases place with
  | inside p => exact size_append a p c
  | before sibling => exact size_insertBefore a sibling c

@[simp] theorem content?_put (a : Arena) (c : CellId) (place : Place) (j : CellId) :
    (a.put c place).content? j = a.content? j := by
  cases place with
  | inside p => exact content?_append a p c j
  | before sibling => exact content?_insertBefore a sibling c j

/-- A place below a cell `p`, where a cell other than `c` may stand. -/
structure HasPlace (a : Arena) (c : CellId) (place : Place) (p : CellId) : Prop where
  parent? : place.parent? a = some p
  lt_size : p < a.size
  ne : place ≠ .before c

namespace HasPlace

theorem before_ne {sibling : CellId} (h : a.HasPlace c (.before sibling) p) : sibling ≠ c :=
  fun heq => h.ne (heq ▸ rfl)

theorem parent?_put (h : a.HasPlace c place p) (hc : c < a.size) (j : CellId) :
    (a.put c place).parent? j = if j = c then some p else a.parent? j := by
  cases place with
  | inside q =>
    obtain rfl : q = p := Option.some.inj h.parent?
    exact parent?_append hc q j
  | before sibling => exact parent?_insertBefore h.before_ne h.parent? hc j

theorem reversedChildren_put (h : a.HasPlace c place p) (hlinked : a.IsLinked) (j : CellId) :
    (a.put c place).reversedChildren j =
      if j = p then place.add c ((a.reversedChildren p).filter (· ≠ c))
      else (a.reversedChildren j).filter (· ≠ c) := by
  cases place with
  | inside q =>
    obtain rfl : q = p := Option.some.inj h.parent?
    exact reversedChildren_append hlinked h.lt_size c j
  | before sibling => exact reversedChildren_insertBefore h.before_ne h.parent? hlinked j

theorem puts (h : a.HasPlace c place p) (hc : c < a.size) : Puts a (a.put c place) c p := by
  cases place with
  | inside q =>
    obtain rfl : q = p := Option.some.inj h.parent?
    exact puts_append h.lt_size hc
  | before sibling => exact puts_insertBefore h.before_ne h.parent? hc

/-- A cell can be put at its place again. -/
theorem put (h : a.HasPlace c place p) (hc : c < a.size) :
    place.parent? (a.put c place) = some p := by
  cases place with
  | inside q => exact h.parent?
  | before sibling => exact (h.parent?_put hc sibling).trans ((if_neg h.before_ne).trans h.parent?)

/-- A place stays where it is when cells that it does not depend on change. -/
theorem of_parent? (h : a.HasPlace c place p) (hlt : p < a'.size)
    (hne : place ≠ .before d) (hparent : ∀ sibling, place = .before sibling →
      a'.parent? sibling = a.parent? sibling) : a'.HasPlace d place p := by
  refine ⟨?_, hlt, hne⟩
  have hplace := h.parent?
  cases place with
  | inside q => exact hplace
  | before sibling => exact (hparent sibling rfl).trans hplace

end HasPlace

theorem filter_insertAfter_of_ne {mark new old : CellId} {ids : List CellId}
    (hnew : new ≠ old) (hmark : mark ≠ old) :
    (insertAfter mark new ids).filter (· ≠ old) =
      insertAfter mark new (ids.filter (· ≠ old)) := by
  induction ids with
  | nil => simp [insertAfter, hnew]
  | cons id ids ih =>
    rw [insertAfter]
    by_cases hid : id = mark
    · have hold : id ≠ old := hid ▸ hmark
      simp [hid, hmark, hnew, insertAfter]
    · rw [if_neg hid]
      by_cases hold : id = old
      · simpa [hold] using ih
      · simpa [hold, hid, insertAfter] using ih

/-- A cell that is put in and taken out again leaves the list as it was without it. -/
theorem filter_insertAfter_self {mark new : CellId} {ids : List CellId} (hmark : mark ≠ new) :
    (insertAfter mark new ids).filter (· ≠ new) = ids.filter (· ≠ new) := by
  induction ids with
  | nil => simp [insertAfter]
  | cons id ids ih =>
    rw [insertAfter]
    by_cases hid : id = mark
    · have hne : id ≠ new := hid ▸ hmark
      simp [hid, hmark]
    · rw [if_neg hid, List.filter_cons, List.filter_cons, ih]

theorem filter_add_self (hne : place ≠ .before c) (ids : List CellId) :
    (place.add c ids).filter (· ≠ c) = ids.filter (· ≠ c) := by
  cases place with
  | inside q => simp [Builder.Place.add]
  | before sibling => exact filter_insertAfter_self fun heq => hne (heq ▸ rfl)

theorem filter_add_of_ne (hcd : c ≠ d) (hne : place ≠ .before d) (ids : List CellId) :
    (place.add c ids).filter (· ≠ d) = place.add c (ids.filter (· ≠ d)) := by
  cases place with
  | inside q => simp [Builder.Place.add, hcd]
  | before sibling => exact filter_insertAfter_of_ne hcd fun heq => hne (heq ▸ rfl)

/-- The links after a new cell has been put at a place and has taken in the cell `y`. -/
structure Wraps (a a' : Arena) (y : CellId) (place : Place) (p : CellId) (content : Content) :
    Prop where
  size : a'.size = a.size + 1
  content? : ∀ j, a'.content? j = if j = a.size then some content else a.content? j
  parent? : ∀ j, a'.parent? j =
    if j = a.size then some p else if j = y then some a.size else a.parent? j
  reversedChildren : ∀ j, a'.reversedChildren j =
    if j = p then place.add a.size ((a.reversedChildren p).filter (· ≠ y))
    else if j = a.size then [y] else (a.reversedChildren j).filter (· ≠ y)

theorem Wraps.unique {content : Content} {a'' : Arena} (h : Wraps a a' y place p content)
    (h' : Wraps a a'' y place p content) : a' = a'' := by
  refine eq_of_links (h.size.trans h'.size.symm) (fun j => ?_) (fun j => ?_) fun j => ?_
  · rw [h.content?, h'.content?]
  · rw [h.parent?, h'.parent?]
  · rw [h.reversedChildren, h'.reversedChildren]

theorem reversedChildren_size (a : Arena) : a.reversedChildren a.size = [] := by
  rw [reversedChildren, getElem?_size]
  rfl

theorem IsLinked.filter_size (h : a.IsLinked) (q : CellId) :
    (a.reversedChildren q).filter (· ≠ a.size) = a.reversedChildren q :=
  h.filter_reversedChildren fun hparent => Nat.lt_irrefl _ (lt_size_of_parent? hparent)

theorem HasPlace.ne_size (h : a.HasPlace y place p) : place ≠ .before a.size := by
  rintro rfl
  exact Nat.lt_irrefl _ (lt_size_of_parent? h.parent?)

theorem HasPlace.wrap (h : a.HasPlace y place p) (hlinked : a.IsLinked) (hy : y < a.size)
    (content : Content) :
    ((a.add content).2.append a.size y).IsLinked ∧
      ((a.add content).2.append a.size y).HasPlace a.size place p := by
  have hsize : (a.add content).2.size = a.size + 1 := size_add a content
  have hnew : a.size < (a.add content).2.size := hsize ▸ Nat.lt_succ_self _
  have hy' : y < (a.add content).2.size := hsize ▸ Nat.lt_succ_of_lt hy
  refine ⟨(hlinked.add content).append hnew hy', ?_⟩
  refine h.of_parent? ?_ h.ne_size fun sibling hsibling => ?_
  · rw [size_append, hsize]
    exact Nat.lt_succ_of_lt h.lt_size
  · subst hsibling
    rw [parent?_append hy', if_neg h.before_ne, parent?_add]

section Wrap

variable (h : a.HasPlace y place p) (hlinked : a.IsLinked) (hy : y < a.size) (content : Content)

include h hlinked hy

/-- The new cell takes in `y` before it is put at the place. -/
theorem HasPlace.append_put_wraps :
    Wraps a (((a.add content).2.append a.size y).put a.size place) y place p content := by
  have hsize : (a.add content).2.size = a.size + 1 := size_add a content
  have hnew : a.size < (a.add content).2.size := hsize ▸ Nat.lt_succ_self _
  have hy' : y < (a.add content).2.size := hsize ▸ Nat.lt_succ_of_lt hy
  have hadd : (a.add content).2.IsLinked := hlinked.add content
  obtain ⟨happend, hplace⟩ := h.wrap hlinked hy content
  have hnew' : a.size < ((a.add content).2.append a.size y).size := by rwa [size_append]
  have hp : p ≠ a.size := Nat.ne_of_lt h.lt_size
  refine ⟨?_, fun j => ?_, fun j => ?_, fun j => ?_⟩
  · rw [size_put, size_append, hsize]
  · rw [content?_put, content?_append, content?_add]
  · rw [hplace.parent?_put hnew', parent?_append hy', parent?_add]
  · simp only [hplace.reversedChildren_put happend, reversedChildren_append hadd hnew,
      reversedChildren_add, if_neg hp, reversedChildren_size]
    by_cases hjp : j = p
    · rw [if_pos hjp, if_pos hjp, List.filter_comm, hlinked.filter_size]
    · rw [if_neg hjp, if_neg hjp]
      by_cases hj : j = a.size
      · rw [if_pos hj, if_pos hj]
        simp [Nat.ne_of_lt hy]
      · rw [if_neg hj, if_neg hj, List.filter_comm, hlinked.filter_size]

/-- The new cell takes in `y` where both have been put at the place. -/
theorem HasPlace.put_append_wraps :
    Wraps a ((((a.put y place).add content).2.put a.size place).append a.size y) y place p
      content := by
  have hsize : ((a.put y place).add content).2.size = a.size + 1 := by rw [size_add, size_put]
  have hnew : a.size < ((a.put y place).add content).2.size := hsize ▸ Nat.lt_succ_self _
  have hy' : y < ((a.put y place).add content).2.size := hsize ▸ Nat.lt_succ_of_lt hy
  have hadd : ((a.put y place).add content).2.IsLinked := ((h.puts hy).linked hlinked).add content
  have hplace : ((a.put y place).add content).2.HasPlace a.size place p := by
    refine h.of_parent? ?_ h.ne_size fun sibling hsibling => ?_
    · rw [hsize]
      exact Nat.lt_succ_of_lt h.lt_size
    · subst hsibling
      rw [parent?_add, h.parent?_put hy, if_neg h.before_ne]
  have hput := (hplace.puts hnew).linked hadd
  have hp : p ≠ a.size := Nat.ne_of_lt h.lt_size
  have hny : a.size ≠ y := Nat.ne_of_gt hy
  refine ⟨?_, fun j => ?_, fun j => ?_, fun j => ?_⟩
  · rw [size_append, size_put, hsize]
  · rw [content?_append, content?_put, content?_add, content?_put, size_put]
  · rw [parent?_append (by rwa [size_put]), hplace.parent?_put hnew, parent?_add,
      h.parent?_put hy]
    by_cases hj : j = y
    · rw [if_pos hj, if_pos hj, if_neg (hj ▸ Ne.symm hny)]
    · rw [if_neg hj, if_neg hj, if_neg hj]
  · have hnew' : a.size < (((a.put y place).add content).2.put a.size place).size := by
      rwa [size_put]
    have hchildren : ∀ q, ((a.put y place).add content).2.reversedChildren q =
        if q = p then place.add y ((a.reversedChildren p).filter (· ≠ y))
        else (a.reversedChildren q).filter (· ≠ y) := by
      intro q
      rw [reversedChildren_add, h.reversedChildren_put hlinked]
    have hold : ∀ q, (((a.reversedChildren q).filter (· ≠ y)).filter (· ≠ a.size)).filter (· ≠ y) =
        (a.reversedChildren q).filter (· ≠ y) := by
      intro q
      have hsame : ((a.reversedChildren q).filter (· ≠ y)).filter (· ≠ a.size) =
          (a.reversedChildren q).filter (· ≠ y) := by
        rw [List.filter_comm, hlinked.filter_size]
      rw [hsame, List.filter_filter]
      simp only [Bool.and_self]
    rw [reversedChildren_append hput hnew', hplace.reversedChildren_put hadd,
      hplace.reversedChildren_put hadd, if_neg (Ne.symm hp), hchildren, hchildren, hchildren,
      if_neg (Ne.symm hp), if_pos rfl]
    by_cases hjp : j = p
    · have hjn : j ≠ a.size := hjp ▸ hp
      rw [if_neg hjn, if_pos hjp, if_pos hjp, filter_add_of_ne hny h.ne]
      refine congrArg (place.add a.size) ?_
      rw [List.filter_comm, filter_add_self h.ne, List.filter_comm, hold]
    · rw [if_neg hjp, if_neg hjp, if_neg hjp]
      by_cases hj : j = a.size
      · rw [if_pos hj, if_pos hj, reversedChildren_size]
        rfl
      · rw [if_neg hj, if_neg hj, hold]

end Wrap

/-- What is made around a cell before it is put somewhere may as well be made there. -/
theorem HasPlace.put_wrap (h : a.HasPlace y place p) (hlinked : a.IsLinked) (hy : y < a.size)
    (content : Content) :
    ((a.add content).2.append a.size y).put a.size place =
      (((a.put y place).add content).2.put a.size place).append a.size y :=
  (h.append_put_wraps hlinked hy content).unique (h.put_append_wraps hlinked hy content)

/-! ## A cell that moves in a sound store -/

/-- A cell moves to a place that is not below it. -/
theorem IsSound.relocate (h : a.IsSound) (hroot : ¬a.IsRoot x) (hp : a.HoldsNodes p)
    (hunder : ¬IsUnder a.up? p x) (hput : Puts a a' x p) :
    a'.IsSound ∧ Moves a.up? a'.up? x p := by
  have hmoves : Moves a.up? a'.up? x p := by
    refine ⟨?_, fun y hy => ?_, hunder⟩
    · rw [hput.up?, if_pos rfl]
    · rw [hput.up?, if_neg hy]
  have hdoc : Arena.document ≠ x := by
    rintro rfl
    exact hroot h.document
  have hang : HangFrom a'.up? Arena.document (· < a'.size) := by
    rw [hput.size]
    exact hmoves.hangFrom h.hang hp.lt_size hdoc
  exact ⟨(hput.isWellFormed h.isWellFormed hroot hp).isSound hang, hmoves⟩

/-! ## A cell that takes over the children of another -/

theorem reversedChildren_foldl_append {children : List CellId} (h : a.IsLinked) (hp : p < a.size)
    (hchildren : ∀ c ∈ children, c < a.size) (hnodup : children.Nodup) (j : CellId) :
    (children.foldl (fun a child => a.append p child) a).reversedChildren j =
      if j = p then children.reverse ++ (a.reversedChildren p).filter (· ∉ children)
      else (a.reversedChildren j).filter (· ∉ children) := by
  induction children generalizing a with
  | nil =>
    have hnone : ∀ ids : List CellId, ids.filter (· ∉ ([] : List CellId)) = ids := by simp
    rw [List.foldl_nil, hnone, hnone]
    split
    · next hj => rw [hj, List.reverse_nil, List.nil_append]
    · rfl
  | cons c children ih =>
    obtain ⟨hc, hrest⟩ := List.forall_mem_cons.1 hchildren
    obtain ⟨hnot, hnodup⟩ := List.nodup_cons.1 hnodup
    have hfilter : ∀ ids : List CellId, (ids.filter (· ≠ c)).filter (· ∉ children) =
        ids.filter (· ∉ c :: children) := by
      intro ids
      rw [List.filter_filter]
      refine List.filter_congr fun d _ => ?_
      simp [Bool.and_comm]
    have hsize : ∀ d ∈ children, d < (a.append p c).size := by
      intro d hd
      rw [size_append]
      exact hrest d hd
    rw [List.foldl_cons, ih (h.append hp hc) (by rwa [size_append]) hsize hnodup,
      reversedChildren_append h hp, reversedChildren_append h hp, if_pos rfl]
    by_cases hj : j = p
    · rw [if_pos hj, if_pos hj, List.filter_cons_of_pos (by simpa using hnot), hfilter,
        List.reverse_cons, List.append_assoc]
      rfl
    · rw [if_neg hj, if_neg hj, if_neg hj, hfilter]

/-- The links after a new cell has become the only child of `y` and has taken over its
children. -/
structure TakesOver (a a' : Arena) (y : CellId) (content : Content) : Prop where
  size : a'.size = a.size + 1
  content? : ∀ j, a'.content? j = if j = a.size then some content else a.content? j
  linked : a'.IsLinked
  parent? : ∀ j, a'.parent? j =
    if j = a.size then some y else if a.parent? j = some y then some a.size else a.parent? j
  reversedChildren : ∀ j, a'.reversedChildren j =
    if j = y then [a.size] else if j = a.size then a.reversedChildren y
    else a.reversedChildren j

theorem IsLinked.takesOver (h : a.IsLinked) (hy : y < a.size) (content : Content) :
    TakesOver a (((a.add content).2.moveChildren y a.size).append y a.size) y content := by
  have hsize : (a.add content).2.size = a.size + 1 := size_add a content
  have hnew : a.size < (a.add content).2.size := hsize ▸ Nat.lt_succ_self _
  have hadd : (a.add content).2.IsLinked := h.add content
  have hmove := hadd.moveChildren y hnew
  have hnewMoved : a.size < ((a.add content).2.moveChildren y a.size).size := by
    rwa [size_moveChildren]
  have hy' : y < ((a.add content).2.moveChildren y a.size).size := by
    rw [size_moveChildren, hsize]
    exact Nat.lt_succ_of_lt hy
  have hne : y ≠ a.size := Nat.ne_of_lt hy
  refine ⟨?_, fun j => ?_, hmove.append hy' hnewMoved, fun j => ?_, fun j => ?_⟩
  · rw [size_append, size_moveChildren, hsize]
  · rw [content?_append, content?_moveChildren, content?_add]
  · rw [parent?_append hnewMoved, parent?_moveChildren hadd, parent?_add]
  · have hchildren : ∀ q, ((a.add content).2.moveChildren y a.size).reversedChildren q =
        if q = a.size then a.reversedChildren y
        else (a.reversedChildren q).filter (· ∉ (a.reversedChildren y).reverse) := by
      intro q
      rw [Arena.moveChildren, reversedChildren_foldl_append hadd hnew
        (hadd.children_lt_size y) (List.nodup_reverse.2 (hadd.nodup y))]
      simp only [reversedChildren_add, reversedChildren_size, List.reverse_reverse,
        List.filter_nil, List.append_nil]
    have hdisjoint : ∀ q, q ≠ y →
        (a.reversedChildren q).filter (· ∉ (a.reversedChildren y).reverse) =
          a.reversedChildren q := by
      intro q hq
      rw [List.filter_eq_self]
      intro c hc
      rw [decide_eq_true_eq, List.mem_reverse, h.mem_iff]
      rw [h.mem_iff] at hc
      rw [hc, Option.some.injEq]
      exact hq
    have hown : (a.reversedChildren y).filter (· ∉ (a.reversedChildren y).reverse) = [] := by
      rw [List.filter_eq_nil_iff]
      intro c hc
      simpa using hc
    rw [reversedChildren_append hmove hy', hchildren, hchildren, if_neg hne, hown]
    by_cases hj : j = y
    · rw [if_pos hj, if_pos hj]
      rfl
    · rw [if_neg hj, if_neg hj]
      by_cases hjn : j = a.size
      · rw [if_pos hjn, if_pos hjn, h.filter_size]
      · rw [if_neg hjn, if_neg hjn, hdisjoint j hj, h.filter_size]

/-- No cell is above or below the next new one. -/
theorem IsSound.up?_new (h : a.IsSound) : a.up? a.size = none ∧ ∀ c, a.up? c ≠ some a.size := by
  refine ⟨?_, fun c hc => Nat.lt_irrefl _ (h.lt_size_of_up? hc)⟩
  rw [up?, parent?_size, Option.none_or]
  exact h.template?_eq_none a.not_isRoot_size

/-- A store stays well formed when a new element takes over the children of a cell. -/
theorem TakesOver.isWellFormed {name : Name} {attributes : List Markup.Attribute}
    (htakes : TakesOver a a' y (.element name attributes none)) (h : a.IsWellFormed)
    (hname : name.isHtml "template" = false) (hy : a.HoldsNodes y) : a'.IsWellFormed := by
  have hplain : Content.IsPlain (.element name attributes none) := ⟨rfl, hname⟩
  refine (h.add hplain).relink (fun c => ?_) htakes.linked fun c q hq => ?_
  · rw [htakes.content?, content?_add]
  rw [htakes.parent?] at hq
  rw [isRoot_add_of_isPlain hplain]
  split at hq
  · next hc =>
    rw [← Option.some.inj hq, hc]
    exact ⟨a.not_isRoot_size, hy.add _⟩
  · split at hq
    · next hparent =>
      rw [← Option.some.inj hq]
      refine ⟨h.not_isRoot_of_parent? hparent, .inr ⟨name, ?_⟩⟩
      rw [element?_add, if_pos rfl]
      rfl
    · exact ⟨h.not_isRoot_of_parent? hq, (h.holdsNodes c q hq).add _⟩

/-- The links upwards after a new element has taken over the children of a cell. -/
theorem TakesOver.interposes {name : Name} {attributes : List Markup.Attribute}
    (htakes : TakesOver a a' y (.element name attributes none)) (h : a.IsSound)
    (hname : name.isHtml "template" = false) (hy : a.HoldsNodes y) :
    Interposes a.up? a'.up? a.size y := by
  have hplain : Content.IsPlain (.element name attributes none) := ⟨rfl, hname⟩
  have htemplate : ∀ c, a'.template? c = a.template? c := by
    intro c
    refine (template?_congr fun d => ?_).trans (template?_add hplain c)
    rw [htakes.content?, content?_add]
  have hup : ∀ c, a'.up? c =
      if c = a.size then some y else if a.parent? c = some y then some a.size else a.up? c := by
    intro c
    rw [up?, htakes.parent?, htemplate, up?]
    split
    · rfl
    · split <;> rfl
  refine ⟨?_, Nat.ne_of_lt hy.lt_size, h.up?_new, fun c hc => ?_⟩
  · rw [hup, if_pos rfl]
  · rw [hup, if_neg hc]
    split
    · next hparent => exact .inr ⟨up?_of_parent? hparent, rfl⟩
    · exact .inl rfl

/-- A new element that takes over the children of a cell leaves a store sound. -/
theorem IsSound.takeOver (h : a.IsSound) (hy : a.HoldsNodes y) {name : Name}
    {attributes : List Markup.Attribute} (hname : name.isHtml "template" = false)
    (htakes : TakesOver a a' y (.element name attributes none)) :
    a'.IsSound ∧ Interposes a.up? a'.up? a.size y := by
  have hinterposes := htakes.interposes h hname hy
  have hang : HangFrom a'.up? Arena.document (· < a'.size) := by
    have hdoc : Arena.document ≠ a.size := Nat.ne_of_lt h.document.lt_size
    refine (hinterposes.hangFrom h.hang hy.lt_size hdoc).mono fun c hc => ?_
    rw [htakes.size] at hc
    exact Nat.lt_succ_iff_lt_or_eq.1 hc
  exact ⟨(htakes.isWellFormed h.isWellFormed hname hy).isSound hang, hinterposes⟩

/-- The links upwards after a new cell has been put below another. -/
theorem IsSound.interposes (h : a.IsSound) (hp : p < a.size) {content : Content}
    (hplain : content.IsPlain) (hput : Puts (a.add content).2 a' a.size p) :
    Interposes a.up? a'.up? a.size p := by
  refine ⟨?_, Nat.ne_of_lt hp, h.up?_new, fun c hc => .inl ?_⟩
  · rw [hput.up?_add hplain, if_pos rfl]
  · rw [hput.up?_add hplain, if_neg hc]

end Arena

end SlimTemplate.Html
