import SlimTemplate.Proofs.Extraction.Extract
import SlimTemplate.Proofs.Extraction.Idempotent
import SlimTemplate.Proofs.Line.Chain

/-!
# Dropped wrappers

A line is taken for the wrapper of the chosen ones if it is an element and no other of them is as
shallow. That it stands around the others is not looked at. It does where one of the chosen lines
stands around all others, and always where names are removed from a source that starts at the
margin. Otherwise a line may be dropped that has nothing to do with some of the others, and lines
before it may come to stand around lines after it.

## Main definitions

* `LineTree.IsWrapperAt`: an element that is shallower than all other chosen lines.
* `LineTree.NestsAt`: a line around another, among the lines at some places.
* `Extraction.DropsWrapper`: what is left when a wrapper is dropped.

## Main statements

* `Extraction.dropsWrapper_of_isWrapperAt`, `Extraction.dropWrapper_of_not_isWrapperAt`: which line
  is dropped.
* `LineTree.IsWrapperAt.isAncestor`: where the ancestors of chosen lines are chosen, it stands
  around the others.
* `extract_dropsWrapper`: what an extraction drops as a wrapper.
-/

namespace SlimTemplate

open Extraction LineTree

variable {options : ExtractionOptions} {source : Text} {result : Extract} {summary : Summary}
  {tree : LineTree} {places : List Nat} {lines front back : List SlimLine} {root : SlimLine}
  {a i j k w : Nat}

namespace LineTree

/-! ## Lines at places as a tree of their own -/

/-- Among the lines at places, one encloses another exactly if all of them after it up to the other
are deeper. -/
theorem encloses_linesAt_iff (h : tree.IsChoice places) (hj : places[j]? = some a)
    (hk : places[k]? = some i) : (LineTree.mk (tree.linesAt places)).Encloses j k ↔
      a ≤ i ∧ ∀ m ∈ places, a < m → m ≤ i → tree.levelAt a < tree.levelAt m := by
  have hlength := length_linesAt h
  have hkl : k < places.length := (List.getElem?_eq_some_iff.1 hk).1
  rw [encloses_iff (by rw [hlength]; exact hkl), ← Nat.not_lt, h.lt_iff hk hj, Nat.not_lt,
    levelAt_linesAt h hj]
  apply and_congr_right
  intro _
  constructor
  · intro hdeeper m hm ham hmi
    obtain ⟨l, hl⟩ := List.mem_iff_getElem?.1 hm
    have hlevel := hdeeper l ((h.lt_iff hj hl).2 ham) (Nat.not_lt.1 fun hkl =>
      absurd ((h.lt_iff hk hl).1 hkl) (Nat.not_lt.2 hmi))
    rwa [levelAt_linesAt h hl] at hlevel
  · intro hdeeper l hjl hlk
    have hl := List.getElem?_eq_getElem (hlk.trans_lt hkl)
    rw [levelAt_linesAt h hl]
    exact hdeeper _ (List.getElem_mem _) ((h.lt_iff hj hl).1 hjl) (Nat.not_lt.1 fun hil =>
      absurd ((h.lt_iff hk hl).2 hil) (Nat.not_lt.2 hlk))

/-- Among lines that stand at places of a source, the line of one place stands around the line of
another, or is it. -/
def NestsAt (lines : List SlimLine) (places : List Nat) (a i : Nat) : Prop :=
  ∃ j k, places[j]? = some a ∧ places[k]? = some i ∧ (LineTree.mk lines).Encloses j k

theorem nestsAt_linesAt_iff (h : tree.IsChoice places) (ha : a ∈ places) (hi : i ∈ places) :
    NestsAt (tree.linesAt places) places a i ↔
      a ≤ i ∧ ∀ m ∈ places, a < m → m ≤ i → tree.levelAt a < tree.levelAt m := by
  constructor
  · rintro ⟨j, k, hj, hk, hencloses⟩
    exact (encloses_linesAt_iff h hj hk).1 hencloses
  · intro hdeeper
    obtain ⟨j, hj⟩ := List.mem_iff_getElem?.1 ha
    obtain ⟨k, hk⟩ := List.mem_iff_getElem?.1 hi
    exact ⟨j, k, hj, hk, (encloses_linesAt_iff h hj hk).2 hdeeper⟩

/-- Raising all levels by the same number changes no nesting. -/
theorem nestsAt_of_raise {raised : List SlimLine} (base : Nat)
    (h : raised.map (·.level) = lines.map fun line => line.level + base) :
    NestsAt raised places a i ↔ NestsAt lines places a i := by
  have hparents : (LineTree.mk raised).parent? = (LineTree.mk lines).parent? :=
    funext fun i => parent?_of_raise base h i
  simp only [NestsAt, Encloses, hparents]

/-! ## The line taken for a wrapper -/

/-- The line at a place opens an element. -/
def IsElementAt (tree : LineTree) (i : Nat) : Prop :=
  ∃ line, tree.lines[i]? = some line ∧ line.kind.isElement = true

/-- The line at a chosen place is an element, and all other chosen lines are deeper. -/
structure IsWrapperAt (tree : LineTree) (places : List Nat) (w : Nat) : Prop where
  mem : w ∈ places
  isElement : tree.IsElementAt w
  level_lt : ∀ i ∈ places.erase w, tree.levelAt w < tree.levelAt i

/-- Chosen lines that all stand below one of them stand below the wrapper. -/
theorem IsWrapperAt.wraps_iff (h : tree.IsWrapperAt places w) :
    (∀ i ∈ places.erase w, tree.IsAncestor w i) ↔
      ∃ a ∈ places, ∀ i ∈ places.erase a, tree.IsAncestor a i := by
  constructor
  · exact fun hwraps => ⟨w, h.mem, hwraps⟩
  · rintro ⟨a, ha, hwraps⟩
    by_cases haw : a = w
    · exact haw ▸ hwraps
    · have hshallower := (hwraps w ((List.mem_erase_of_ne (Ne.symm haw)).2 h.mem)).levelAt_lt
      exact absurd hshallower (h.level_lt a ((List.mem_erase_of_ne haw).2 ha)).asymm

/-- A wrapper that stands around all other chosen lines is the first of them. -/
theorem head?_eq_of_wraps (h : tree.IsChoice places) (hw : w ∈ places)
    (hwraps : ∀ i ∈ places.erase w, tree.IsAncestor w i) : places.head? = some w := by
  cases places with
  | nil => cases hw
  | cons first rest =>
    by_cases hfirst : w = first
    · rw [hfirst, List.head?_cons]
    · have hrest := (List.mem_cons.1 hw).resolve_left hfirst
      have hlt := (hwraps first ((List.mem_erase_of_ne (Ne.symm hfirst)).2 List.mem_cons_self)).lt
      exact absurd ((isChoice_cons.1 h).2.1 w hrest) hlt.asymm

/-- Without the wrapper the same lines nest, unless it stood between them. -/
theorem IsWrapperAt.nestsAt_iff (h : tree.IsWrapperAt places w) (hchoice : tree.IsChoice places)
    (ha : a ∈ places.erase w) (hi : i ∈ places.erase w) :
    NestsAt (tree.linesAt places) places a i ↔
      NestsAt (tree.linesAt (places.erase w)) (places.erase w) a i ∧ ¬(a < w ∧ w < i) := by
  have hleft : tree.IsChoice (places.erase w) := hchoice.sublist List.erase_sublist
  rw [nestsAt_linesAt_iff hchoice (List.mem_of_mem_erase ha) (List.mem_of_mem_erase hi),
    nestsAt_linesAt_iff hleft ha hi]
  constructor
  · rintro ⟨hai, hdeeper⟩
    refine ⟨⟨hai, fun m hm => hdeeper m (List.mem_of_mem_erase hm)⟩, ?_⟩
    rintro ⟨haw, hwi⟩
    exact absurd (hdeeper w h.mem haw hwi.le) (h.level_lt a ha).asymm
  · rintro ⟨⟨hai, hdeeper⟩, hbetween⟩
    refine ⟨hai, fun m hm ham hmi => ?_⟩
    by_cases hmw : m = w
    · have hne : m ≠ i := fun hmi => (hchoice.nodup.mem_erase_iff.1 hi).1 (hmi ▸ hmw)
      exact absurd ⟨hmw ▸ ham, hmw ▸ lt_of_le_of_ne hmi hne⟩ hbetween
    · exact hdeeper m ((List.mem_erase_of_ne hmw).2 hm) ham hmi

/-- Where a source starts at the margin and all ancestors of chosen lines are chosen, the wrapper
stands around the others. -/
theorem IsWrapperAt.isAncestor (h : tree.IsWrapperAt places w) (hchoice : tree.IsChoice places)
    (hmargin : tree.levelAt 0 = 0)
    (hclosed : ∀ i ∈ places, ∀ a, tree.Encloses a i → a ∈ places) (hi : i ∈ places.erase w) :
    tree.IsAncestor w i := by
  obtain ⟨hne, hmem⟩ := hchoice.nodup.mem_erase_iff.1 hi
  obtain ⟨r, hencloses, hroot⟩ := exists_encloses_root tree i
  -- Of the chosen lines only the wrapper can stand at the margin.
  have hrw : r = w := by
    by_contra hrw
    have hlevel := h.level_lt r ((List.mem_erase_of_ne hrw).2 (hclosed i hmem r hencloses))
    rw [levelAt_of_parent?_eq_none hmargin hroot] at hlevel
    exact Nat.not_lt_zero _ hlevel
  exact (encloses_iff_eq_or_isAncestor.1 (hrw ▸ hencloses)).resolve_left hne

theorem erase_append_cons {before after : List Nat} (h : tree.IsChoice (before ++ w :: after)) :
    (before ++ w :: after).erase w = before ++ after := by
  have hbefore : w ∉ before := fun hw =>
    (List.nodup_append.1 h.nodup).2.2 w hw w List.mem_cons_self rfl
  rw [List.erase_append_right _ hbefore, List.erase_cons_head]

/-- The wrapper by the lines before and after it. -/
theorem isWrapperAt_append_cons_iff {before after : List Nat}
    (h : tree.IsChoice (before ++ w :: after)) (hroot : tree.lines[w]? = some root) :
    tree.IsWrapperAt (before ++ w :: after) w ↔ root.kind.isElement = true ∧
      ∀ line ∈ tree.linesAt before ++ tree.linesAt after, root.level < line.level := by
  have hothers := erase_append_cons h
  have hleft := h.sublist (hothers ▸ List.erase_sublist)
  rw [← linesAt_append, forall_level_linesAt_iff hleft, ← levelAt_of_getElem? hroot, ← hothers]
  constructor
  · rintro ⟨-, ⟨line, hline, helement⟩, hdeeper⟩
    obtain rfl := Option.some.inj (hroot.symm.trans hline)
    exact ⟨helement, hdeeper⟩
  · rintro ⟨helement, hdeeper⟩
    exact ⟨List.mem_append_right _ List.mem_cons_self, ⟨root, hroot, helement⟩, hdeeper⟩

end LineTree

namespace Extraction

/-! ## Dropping -/

theorem leastLevel?_append_cons (hdeeper : ∀ line ∈ front ++ back, root.level < line.level) :
    SlimLine.leastLevel? (front ++ root :: back) = some root.level := by
  rw [SlimLine.leastLevel?, List.min?_eq_some_iff]
  refine ⟨List.mem_map.2 ⟨root, by simp, rfl⟩, fun level hlevel => ?_⟩
  obtain ⟨line, hline, rfl⟩ := List.mem_map.1 hlevel
  rw [List.mem_append, List.mem_cons] at hline
  rcases hline with hfront | rfl | hback
  · exact (hdeeper line (List.mem_append_left _ hfront)).le
  · exact le_rfl
  · exact (hdeeper line (List.mem_append_right _ hback)).le

/-- An element that is shallower than all other lines is dropped. -/
theorem dropWrapper_append_cons (helement : root.kind.isElement = true)
    (hdeeper : ∀ line ∈ front ++ back, root.level < line.level) :
    dropWrapper (front ++ root :: back) = lift (front ++ back) := by
  have hnone : ∀ l : List SlimLine, (∀ line ∈ l, root.level < line.level) →
      l.filter (·.level = root.level) = [] ∧ l.filter (·.level ≠ root.level) = l := by
    intro l hl
    constructor
    · exact List.filter_eq_nil_iff.2 fun line hline => by simpa using (hl line hline).ne'
    · exact List.filter_eq_self.2 fun line hline => by simpa using (hl line hline).ne'
  obtain ⟨hdeepFront, hdeepBack⟩ := List.forall_mem_append.1 hdeeper
  obtain ⟨hfront, hfront'⟩ := hnone front hdeepFront
  obtain ⟨hback, hback'⟩ := hnone back hdeepBack
  have hroot : (front ++ root :: back).filter (·.level = root.level) = [root] := by
    rw [List.filter_append, List.filter_cons_of_pos (by simp), hfront, hback, List.nil_append]
  have hrest : (front ++ root :: back).filter (·.level ≠ root.level) = front ++ back := by
    rw [List.filter_append, List.filter_cons_of_neg (by simp), hfront', hback']
  simp only [dropWrapper, leastLevel?_append_cons hdeeper, hroot, hrest, helement, if_true]

/-- Lines stay as they are unless one of them is such an element. -/
theorem dropWrapper_eq_or (lines : List SlimLine) : dropWrapper lines = lines ∨
    ∃ front root back, lines = front ++ root :: back ∧ root.kind.isElement = true ∧
      ∀ line ∈ front ++ back, root.level < line.level := by
  rw [or_iff_not_imp_left]
  intro hdropped
  rw [dropWrapper] at hdropped
  split at hdropped
  · exact absurd rfl hdropped
  · next least hleast =>
    split at hdropped
    · next root hroots =>
      split at hdropped
      · next helement =>
        obtain ⟨front, back, rfl, hfront, hroot, hback⟩ := List.filter_eq_cons_iff.1 hroots
        refine ⟨front, root, back, rfl, helement, fun line hline => ?_⟩
        have hroot : root.level = least := by simpa using hroot
        have hother : line.level ≠ least := by
          rcases List.mem_append.1 hline with hline | hline
          · simpa using hfront line hline
          · simpa using List.filter_eq_nil_iff.1 hback line hline
        have hle : least ≤ line.level := by
          refine (List.min?_eq_some_iff.1 hleast).2 _ (List.mem_map.2 ⟨line, ?_, rfl⟩)
          rw [List.mem_append, List.mem_cons]
          exact (List.mem_append.1 hline).imp_right Or.inr
        omega
      · exact absurd rfl hdropped
    · exact absurd rfl hdropped

/-- Lines below the margin are lifted by one level each. -/
theorem map_level_lift (h : ∀ line ∈ lines, 0 < line.level) :
    (lift lines).map (fun line => line.level + 1) = lines.map (·.level) := by
  rw [lift, List.map_map]
  exact List.map_congr_left fun line hline => Nat.sub_add_cancel (h line hline)

/-- What is left of chosen lines of which one is dropped as their wrapper. -/
structure DropsWrapper (tree : LineTree) (places : List Nat) (w : Nat) (left : List SlimLine) :
    Prop where
  isWrapperAt : tree.IsWrapperAt places w
  /-- The other lines are left, lifted. -/
  left_eq : left = lift (tree.linesAt (places.erase w))
  /-- None of them stood at the margin, so each is lifted by one level. -/
  level_eq : left.map (fun line => line.level + 1) =
    (tree.linesAt (places.erase w)).map (·.level)
  /-- The wrapper stands around them if any chosen line stands around all others. -/
  wraps_iff : (∀ i ∈ places.erase w, tree.IsAncestor w i) ↔
    ∃ a ∈ places, ∀ i ∈ places.erase a, tree.IsAncestor a i
  head?_of_wraps : (∀ i ∈ places.erase w, tree.IsAncestor w i) → places.head? = some w
  /-- Lines nest as before, except that the wrapper no longer stands between them. -/
  nestsAt_iff : ∀ a ∈ places.erase w, ∀ i ∈ places.erase w,
    (NestsAt (tree.linesAt places) places a i ↔
      NestsAt left (places.erase w) a i ∧ ¬(a < w ∧ w < i))

theorem dropWrapper_linesAt (hchoice : tree.IsChoice places) (h : tree.IsWrapperAt places w) :
    dropWrapper (tree.linesAt places) = lift (tree.linesAt (places.erase w)) := by
  obtain ⟨before, after, rfl⟩ := List.append_of_mem h.mem
  obtain ⟨root, hroot, -⟩ := h.isElement
  obtain ⟨helement, hdeeper⟩ := (isWrapperAt_append_cons_iff hchoice hroot).1 h
  rw [erase_append_cons hchoice, linesAt_append, linesAt_append, linesAt_cons hroot,
    dropWrapper_append_cons helement hdeeper]

/-- A wrapper is dropped. -/
theorem dropsWrapper_of_isWrapperAt (hchoice : tree.IsChoice places)
    (h : tree.IsWrapperAt places w) :
    DropsWrapper tree places w (dropWrapper (tree.linesAt places)) := by
  have hbelow : ∀ line ∈ tree.linesAt (places.erase w), 0 < line.level :=
    (forall_level_linesAt_iff (hchoice.sublist List.erase_sublist)).2 fun i hi =>
      Nat.zero_lt_of_lt (h.level_lt i hi)
  have hlevels := map_level_lift hbelow
  rw [dropWrapper_linesAt hchoice h]
  refine ⟨h, rfl, hlevels, h.wraps_iff, head?_eq_of_wraps hchoice h.mem, fun a ha i hi => ?_⟩
  rw [h.nestsAt_iff hchoice ha hi, nestsAt_of_raise 1 hlevels.symm]

/-- Without a wrapper nothing is dropped. -/
theorem dropWrapper_of_not_isWrapperAt (hchoice : tree.IsChoice places)
    (h : ∀ w, ¬tree.IsWrapperAt places w) :
    dropWrapper (tree.linesAt places) = tree.linesAt places := by
  refine (dropWrapper_eq_or _).resolve_right ?_
  rintro ⟨front, root, back, hlines, helement, hdeeper⟩
  -- The place of the line that would be dropped.
  have hplace : (tree.linesAt places)[front.length]? = some root := by
    rw [hlines, List.getElem?_append_right le_rfl, Nat.sub_self, List.getElem?_cons_zero]
  rw [getElem?_linesAt hchoice] at hplace
  obtain ⟨w, hw, hroot⟩ := Option.bind_eq_some_iff.1 hplace
  obtain ⟨before, after, rfl, hlength⟩ := exists_append_of_getElem? hw
  have hbefore : (tree.linesAt before).length = front.length := by
    rw [length_linesAt (hchoice.sublist (List.sublist_append_left _ _)), hlength]
  rw [linesAt_append, linesAt_cons hroot] at hlines
  obtain ⟨rfl, hrest⟩ := List.append_inj hlines hbefore
  obtain ⟨-, rfl⟩ := List.cons.inj hrest
  exact h w ((isWrapperAt_append_cons_iff hchoice hroot).2 ⟨helement, hdeeper⟩)

/-- Without an outline the chosen lines stand at places. With names to remove the ancestors of
chosen lines are chosen. -/
theorem exists_places_of_choose (houtline : options.outline = none)
    (h : choose options tree = .ok (lines, summary)) :
    ∃ places, tree.IsChoice places ∧ lines = tree.linesAt places ∧
      (options.selector = none → splitNames options.keep = [] →
        ∀ i ∈ places, ∀ a, tree.Encloses a i → a ∈ places) := by
  by_cases hremove : options.selector = none ∧ splitNames options.keep = []
  · obtain ⟨_, _, chosen, hchoose, hchooses, hkept⟩ :=
      exists_choose_isKept (Or.inr hremove) tree
    obtain ⟨rfl, -⟩ := Prod.mk.inj (Except.ok.inj (h.symm.trans hchoose))
    obtain ⟨places, hchoice, rfl, hmem⟩ := hchooses
    have hplaces : ∀ i, i ∈ places ↔ IsKept options tree i := fun i => by
      simpa [hkept] using hmem i
    refine ⟨places, hchoice, rfl, fun _ _ i hi a hencloses => ?_⟩
    rw [hplaces] at hi ⊢
    exact hi.of_encloses hencloses
  · have hway : (∃ text selector, options.selector = some text ∧
        Selector.parse text = .ok selector) ∨
          options.selector = none ∧ splitNames options.keep ≠ [] := by
      cases hselector : options.selector with
      | none => exact Or.inr ⟨rfl, fun hkeep => hremove ⟨hselector, hkeep⟩⟩
      | some text =>
        simp only [choose, houtline, hselector] at h
        cases hparse : Selector.parse text with
        | error e =>
          rw [hparse] at h
          cases h
        | ok selector => exact Or.inl ⟨text, selector, rfl, hparse⟩
    obtain ⟨_, _, hchoose, places, hchoice, rfl, -⟩ :=
      exists_choose_isInBlock houtline hway tree
    obtain ⟨rfl, -⟩ := Prod.mk.inj (Except.ok.inj (h.symm.trans hchoose))
    exact ⟨places, hchoice, rfl, fun hselector hkeep => absurd ⟨hselector, hkeep⟩ hremove⟩

end Extraction

/-- Where wrappers are to be dropped, the line that is dropped is the element that is shallower
than all other chosen lines, if there is one, and the others are lifted by one level each. It
stands around all others if any chosen line does, and where names are removed from a source that
starts at the margin. -/
theorem extract_dropsWrapper (houtline : options.outline = none)
    (hwrapper : options.removeWrapper = true) (h : extract options source = .ok result) :
    let tree := LineTree.ofSource options.layout source
    ∃ places left, tree.IsChoice places ∧
      choose options tree = .ok (tree.linesAt places, result.summary) ∧
      result.content = SlimLine.render options.layout (dropOrphans left) ++ ['\n'] ∧
      ((∀ w, ¬tree.IsWrapperAt places w) ∧ left = tree.linesAt places ∨
        ∃ w, DropsWrapper tree places w left ∧
          (options.selector = none → splitNames options.keep = [] → tree.levelAt 0 = 0 →
            ∀ i ∈ places.erase w, tree.IsAncestor w i)) := by
  intro tree
  obtain ⟨-, lines, hchoose, hcontent⟩ := exists_of_extract h
  obtain ⟨places, hchoice, rfl, hclosed⟩ := exists_places_of_choose houtline hchoose
  rw [cleanUp, hwrapper, houtline, Option.isNone_none, Bool.and_self, if_pos rfl] at hcontent
  refine ⟨places, dropWrapper (tree.linesAt places), hchoice, hchoose, hcontent, ?_⟩
  by_cases hw : ∃ w, tree.IsWrapperAt places w
  · obtain ⟨w, hw⟩ := hw
    exact Or.inr ⟨w, dropsWrapper_of_isWrapperAt hchoice hw, fun hselector hkeep hmargin i hi =>
      hw.isAncestor hchoice hmargin (hclosed hselector hkeep) hi⟩
  · rw [not_exists] at hw
    exact Or.inl ⟨hw, dropWrapper_of_not_isWrapperAt hchoice hw⟩

/-- Of a page without its head and its menu the line around all others is dropped. -/
theorem extract_dropsWrapper_pageWithMenu :
    let options := { ExtractionOptions.standard with removeWrapper := true }
    let tree := LineTree.ofSource .standard pageWithMenu
    ∃ result places left, extract options pageWithMenu = .ok result ∧
      result.content = "body\n    p Text\n".toList ∧
      choose options tree = .ok (tree.linesAt places, result.summary) ∧
      ((∀ w, ¬tree.IsWrapperAt places w) ∧ left = tree.linesAt places ∨
        ∃ w, DropsWrapper tree places w left ∧
          ∀ i ∈ places.erase w, tree.IsAncestor w i) := by
  intro options tree
  have h : extract options pageWithMenu = .ok ⟨"body\n    p Text\n".toList,
      .sections (["doctype", "head", "nav", "header", "footer", "script"].map String.toList)
        none⟩ := by
    decide +kernel
  obtain ⟨places, left, -, hchoose, -, hdropped⟩ := extract_dropsWrapper rfl rfl h
  refine ⟨_, places, left, h, rfl, hchoose, hdropped.imp_right ?_⟩
  rintro ⟨w, hw, hwraps⟩
  exact ⟨w, hw, hwraps rfl (by decide +kernel) (by decide +kernel)⟩

/-- Of two cards at different depths the first is dropped with its text, although the other does
not stand below it. -/
theorem extract_cards_dropped :
    let options := { selectingCards with removeWrapper := true }
    let tree := LineTree.ofSource .standard cardsAtTwoDepths
    (extract options cardsAtTwoDepths).map Extract.content = .ok "p.card B\n".toList ∧
    choose options tree = .ok (tree.linesAt [0, 2], .selector ".card".toList) ∧
    DropsWrapper tree [0, 2] 0 (dropWrapper (tree.linesAt [0, 2])) ∧
    ¬tree.IsAncestor 0 2 := by
  intro options tree
  refine ⟨by decide +kernel, by decide +kernel, ?_, by decide +kernel⟩
  exact dropsWrapper_of_isWrapperAt ⟨by decide, by decide +kernel⟩
    ⟨by decide, ⟨_, rfl, by decide +kernel⟩, by decide +kernel⟩

end SlimTemplate
