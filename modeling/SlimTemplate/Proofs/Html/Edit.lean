import Mathlib.Logic.Relation
import SlimTemplate.Html.Document

/-!
# What taking a token does to the state

The rules of construction change the tree in few ways: they insert characters and elements, add
missing attributes, split formatting elements, and once replace the body by frames. All else they
do is to close elements and to steer what comes next. Each operation of the builder is a sequence
of such edits, so what every edit preserves is preserved by all rules.

## Main definitions

* `Html.Scope`: which elements may be created and which modes entered.
* `Html.Edit`: one change of the state.
* `Html.Leads`: a sequence of edits that keeps the state within a scope.

## Main statements

* `Html.reopenFormatting_leads`, `Html.closeFormatting_leads`: formatting elements are opened again
  and closed by edits.
-/

namespace SlimTemplate.Html

open Builder

/-- Whether content goes into the document in this mode: neither raw text is read nor is the body
or the set of frames closed. -/
def Mode.isInside : Mode → Bool
  | .text | .afterBody | .afterAfterBody | .afterFrameset | .afterAfterFrameset => false
  | _ => true

/-- The elements that never hold anything. -/
def isEmptyElement : String → Bool
  | "area" | "base" | "br" | "col" | "embed" | "hr" | "img" | "input" | "link" | "meta" | "param"
  | "source" | "track" | "wbr" => true
  | _ => false

/-- Which elements may be created and which modes entered while tokens are taken. -/
structure Scope where
  makes : Name → List Markup.Attribute → Prop
  /-- Which elements of SVG and MathML may be opened. -/
  opensForeign : Name → Prop
  /-- Whether elements of SVG and MathML may stand outside of such elements. -/
  entersForeign : Prop
  enters : Mode → Prop
  /-- Whether raw text may be read. -/
  holdsRaw : Prop
  /-- Whether a set of frames may replace the body. -/
  dropsBody : Prop
  enters_of_isInside : ∀ mode : Mode, mode.isInside = true → enters mode

/-- Whether an entry of the formatting elements may be opened again. -/
def Scope.Remembers (scope : Scope) : FormatEntry → Prop
  | .marker => True
  | .element _ tag =>
    isFormatting tag.name = true ∧ scope.makes ⟨.html, tag.name⟩ tag.attributes

/-- Whether attributes may be added to an element. -/
def Scope.Merges (scope : Scope) (more : List Markup.Attribute) : Prop :=
  ∀ name attributes some, scope.makes name attributes → some.Sublist more →
    scope.makes name (attributes ++ some)

/-- Whether what steers the construction lies within a scope. -/
structure Scope.Holds (scope : Scope) (formatting : List FormatEntry) (mode returnMode : Mode)
    (templateModes : List Mode) (raw : Option RawKind) : Prop where
  remembers : ∀ entry ∈ formatting, scope.Remembers entry
  enters_mode : scope.enters mode
  enters_returnMode : scope.enters returnMode
  enters_templateModes : ∀ mode ∈ templateModes, scope.enters mode
  raw_eq : scope.holdsRaw ∨ raw = none ∧ returnMode ≠ .inTableText

/-- Whether a state lies within a scope. -/
def Builder.Fits (scope : Scope) (b : Builder) : Prop :=
  scope.Holds b.formatting b.mode b.returnMode b.templateModes b.raw

/-- Which elements may be opened in a state. -/
inductive Scope.MayOpen (scope : Scope) (b : Builder) : Name → Prop
  | html {name : String} (h : isEmptyElement name = false) : MayOpen scope b ⟨.html, name⟩
  | foreign {name : Name} (h : scope.opensForeign name)
      (hin : scope.entersForeign ∨ ∃ e ∈ b.opened, e.name.space ≠ .html) : MayOpen scope b name

/-- One change of the state. -/
inductive Edit (scope : Scope) : Builder → Builder → Prop
  /-- Elements are closed and what comes next is steered. -/
  | steer {b b' : Builder} (arena : b'.arena = b.arena) (opened : b'.opened.Sublist b.opened)
      (head : b'.head = b.head ∨ b'.head ∈ b.opened ∧ b'.head.name = ⟨.html, "head"⟩) :
      Edit scope b b'
  | insertChar (b : Builder) (c : Char) : Edit scope b (b.insertChar c)
  | insertClosed (b : Builder) {name : Name} {attributes : List Markup.Attribute}
      (h : scope.makes name attributes) : Edit scope b (b.insertClosed name attributes).2
  | insertOpened (b : Builder) {name : Name} {attributes : List Markup.Attribute}
      (h : scope.makes name attributes) (hopen : scope.MayOpen b name) :
      Edit scope b (b.insertOpened name attributes).2
  | insertRoot (b : Builder) {attributes : List Markup.Attribute}
      (h : scope.makes ⟨.html, "html"⟩ attributes) : Edit scope b (b.insertRoot attributes)
  /-- An element that is there gets the attributes that it lacks. -/
  | merge (b : Builder) (id : CellId) {more : List Markup.Attribute} (h : scope.Merges more) :
      Edit scope b { b with arena := b.arena.addMissing id more }
  /-- An element is created at the end of the head, which has been closed. -/
  | intoHeadClosed (b : Builder) {name : Name} {attributes : List Markup.Attribute}
      (h : scope.makes name attributes) :
      Edit scope b (((b.push b.head).insertClosed name attributes).2.removeOpen b.head.id)
  | intoHeadOpened (b : Builder) {name : Name} {attributes : List Markup.Attribute}
      (h : scope.makes name attributes) (hopen : scope.MayOpen b name) :
      Edit scope b (((b.push b.head).insertOpened name attributes).2.removeOpen b.head.id)
  | splitAround (b : Builder) {target : OpenElement} {tag : Tag} {block : OpenElement}
      {inner between outer : List OpenElement}
      (opened : b.opened = inner ++ block :: (between ++ target :: outer))
      (bound : ∀ e ∈ inner ++ block :: between, Name.boundsDefault e.name = false)
      (h : scope.Remembers (.element target.id tag))
      (remembers : ∀ entry ∈ b.formatting, scope.Remembers entry) :
      Edit scope b (b.splitAround target.id tag inner block between outer)
  /-- The body, which is still empty, makes room for a set of frames. -/
  | dropBody (b : Builder) {body : OpenElement} (hbody : b.body? = some body)
      (h : scope.dropsBody) :
      Edit scope b { b with
        arena := b.arena.detach body.id
        opened := b.opened.drop (b.opened.length - 1) }

/-- A sequence of edits that leads from a state within a scope to another one. -/
def Leads (scope : Scope) (b b' : Builder) : Prop :=
  b.Fits scope → b'.Fits scope ∧ Relation.ReflTransGen (Edit scope) b b'

variable {scope : Scope} {b b' b'' : Builder}

theorem Leads.refl (b : Builder) : Leads scope b b :=
  fun h => ⟨h, .refl⟩

theorem Leads.trans (h : Leads scope b b') (h' : Leads scope b' b'') : Leads scope b b'' := by
  intro hfits
  obtain ⟨hfits', hedits⟩ := h hfits
  obtain ⟨hfits'', hedits'⟩ := h' hfits'
  exact ⟨hfits'', hedits.trans hedits'⟩

/-- A choice between two states is reached if both are. -/
theorem Leads.ite {p : Prop} [Decidable p] (h : p → Leads scope b b')
    (h' : ¬p → Leads scope b b'') : Leads scope b (if p then b' else b'') := by
  split
  · next hp => exact h hp
  · next hp => exact h' hp

theorem Leads.of_edit (h : Edit scope b b') (hfits : b.Fits scope → b'.Fits scope) :
    Leads scope b b' :=
  fun hb => ⟨hfits hb, .single h⟩

/-! ## Steering -/

/-- A state with the same tree, and with no other elements open than before. -/
theorem Leads.steer (arena : b'.arena = b.arena) (opened : b'.opened.Sublist b.opened)
    (head : b'.head = b.head ∨ b'.head ∈ b.opened ∧ b'.head.name = ⟨.html, "head"⟩)
    (hfits : b.Fits scope → b'.Fits scope) : Leads scope b b' :=
  .of_edit (.steer arena opened head) hfits

/-- Elements are closed. -/
theorem Leads.close {opened : List OpenElement} (h : opened.Sublist b.opened) :
    Leads scope b { b with opened } :=
  .steer rfl h (.inl rfl) id

/-- Only what the scope does not speak of changes. -/
theorem Leads.idle (arena : b'.arena = b.arena) (opened : b'.opened = b.opened)
    (head : b'.head = b.head) (hfits : b.Fits scope → b'.Fits scope) : Leads scope b b' :=
  .steer arena (opened ▸ .refl _) (.inl head) hfits

theorem Leads.format {formatting : List FormatEntry}
    (h : ∀ entry ∈ formatting, entry ∈ b.formatting ∨ scope.Remembers entry) :
    Leads scope b { b with formatting } := by
  refine .idle rfl rfl rfl fun hfits => ?_
  refine ⟨fun entry hentry => ?_, hfits.enters_mode, hfits.enters_returnMode,
    hfits.enters_templateModes, hfits.raw_eq⟩
  exact (h entry hentry).elim (hfits.remembers entry) id

theorem goto_leads {mode : Mode} (h : scope.enters mode) : Leads scope b (b.goto mode) :=
  .idle rfl rfl rfl fun hfits =>
    ⟨hfits.remembers, h, hfits.enters_returnMode, hfits.enters_templateModes, hfits.raw_eq⟩

theorem gotoInside_leads {mode : Mode} (h : mode.isInside = true) :
    Leads scope b (b.goto mode) :=
  goto_leads (scope.enters_of_isInside mode h)

theorem noFrameset_leads : Leads scope b b.noFrameset :=
  .idle rfl rfl rfl id

theorem pop_leads : Leads scope b b.pop :=
  .close (List.tail_sublist _)

theorem dropThrough_sublist (wanted : OpenElement → Bool) (opened : List OpenElement) :
    (dropThrough wanted opened).Sublist opened := by
  fun_induction dropThrough wanted opened with
  | case1 => exact .refl _
  | case2 e rest => exact List.sublist_cons_self e rest
  | case3 e rest _ ih => exact ih.cons e

theorem popThrough_leads (name : String) : Leads scope b (b.popThrough name) :=
  .close (dropThrough_sublist _ _)

theorem popThroughIn_leads (set : String → Bool) : Leads scope b (b.popThroughIn set) :=
  .close (dropThrough_sublist _ _)

theorem popTo_leads (stop : Name → Bool) : Leads scope b (b.popTo stop) :=
  .close (List.dropWhile_sublist _)

theorem closeImplied_leads (implied : String → Bool) : Leads scope b (b.closeImplied implied) :=
  .close (List.dropWhile_sublist _)

theorem closeImpliedExcept_leads (name : String) :
    Leads scope b (b.closeImpliedExcept name) :=
  closeImplied_leads _

theorem removeOpen_leads (id : CellId) : Leads scope b (b.removeOpen id) :=
  .close List.filter_sublist

theorem closeParagraph_leads : Leads scope b b.closeParagraph :=
  (closeImpliedExcept_leads "p").trans (popThrough_leads "p")

theorem closeParagraphInScope_leads : Leads scope b b.closeParagraphInScope :=
  .ite (fun _ => closeParagraph_leads) fun _ => .refl b

theorem selectMode_isInside (opened : List OpenElement) :
    (selectMode opened).isInside = true := by
  fun_induction selectMode opened with
  | case1 => rfl
  | case2 => rfl
  | case3 => rfl
  | case4 _ _ _ _ ih => exact ih

theorem modeFor_enters (h : ∀ mode ∈ b.templateModes, scope.enters mode)
    (opened : List OpenElement) : scope.enters (b.modeFor opened) := by
  have hinside := scope.enters_of_isInside
  induction opened with
  | nil => exact hinside _ rfl
  | cons e rest ih =>
    rw [modeFor]
    split
    · exact ih
    · split
      any_goals exact hinside _ rfl
      · exact hinside _ (selectMode_isInside rest)
      · split
        · exact ih
        · exact hinside _ rfl
      · split
        · exact ih
        · exact hinside _ rfl
      · cases hmodes : b.templateModes with
        | nil => exact hinside _ rfl
        | cons mode more => exact h mode (hmodes ▸ List.mem_cons_self)
      · split
        · exact ih
        · exact hinside _ rfl
      · split <;> exact hinside _ rfl
      · exact ih

theorem gotoReset_leads : Leads scope b (b.goto b.resetMode) :=
  fun hfits => goto_leads (modeFor_enters hfits.enters_templateModes b.opened) hfits

/-! ## Insertions -/

theorem fits_putAt {id : CellId} {place : Place} (h : b.Fits scope) :
    (b.putAt id place).Fits scope := by
  cases place <;> exact h

theorem fits_create {name : Name} {attributes : List Markup.Attribute} (h : b.Fits scope) :
    (b.create name attributes).2.Fits scope := by
  rw [create]
  split <;> exact h

theorem fits_insertClosed {name : Name} {attributes : List Markup.Attribute}
    (h : b.Fits scope) : (b.insertClosed name attributes).2.Fits scope :=
  fits_putAt (fits_create h)

theorem insertClosed_leads {name : Name} {attributes : List Markup.Attribute}
    (h : scope.makes name attributes) : Leads scope b (b.insertClosed name attributes).2 :=
  .of_edit (.insertClosed b h) fits_insertClosed

theorem insertOpened_leads {name : Name} {attributes : List Markup.Attribute}
    (h : scope.makes name attributes) (hopen : scope.MayOpen b name) :
    Leads scope b (b.insertOpened name attributes).2 :=
  .of_edit (.insertOpened b h hopen) fits_insertClosed

theorem insertChar_leads (c : Char) : Leads scope b (b.insertChar c) := by
  refine .of_edit (.insertChar b c) fun hfits => ?_
  rw [Builder.insertChar]
  cases b.place <;> exact hfits

theorem insertRoot_leads {attributes : List Markup.Attribute}
    (h : scope.makes ⟨.html, "html"⟩ attributes) : Leads scope b (b.insertRoot attributes) := by
  refine .of_edit (.insertRoot b h) fun hfits => ?_
  have hcreate : ((b.create ⟨.html, "html"⟩ attributes).2).Fits scope := fits_create hfits
  exact hcreate

/-! ## Formatting elements -/

theorem clearFormatting_leads : Leads scope b b.clearFormatting :=
  .format fun _ h => .inl (List.mem_of_mem_drop (List.mem_of_mem_drop h))

theorem markFormatting_leads : Leads scope b b.markFormatting := by
  refine .format fun entry hentry => ?_
  rcases List.mem_cons.1 hentry with rfl | hentry
  · exact .inr trivial
  · exact .inl hentry

theorem removeFormatting_leads (id : CellId) : Leads scope b (b.removeFormatting id) :=
  .format fun _ h => .inl (List.mem_filter.1 h).1

theorem isEmptyElement_of_isFormatting {name : String} (h : isFormatting name = true) :
    isEmptyElement name = false := by
  unfold isFormatting at h
  split at h
  case h_15 => cases h
  all_goals rfl

/-- A formatting element is created and remembered. -/
theorem rememberOpened_leads {tag : Tag} (h : ∀ id, scope.Remembers (.element id tag)) :
    Leads scope b
      { (b.insertOpened ⟨.html, tag.name⟩ tag.attributes).2 with
        formatting :=
          .element (b.insertOpened ⟨.html, tag.name⟩ tag.attributes).1.id tag ::
            (b.insertOpened ⟨.html, tag.name⟩ tag.attributes).2.formatting } := by
  refine (insertOpened_leads (h 0).2 (.html (isEmptyElement_of_isFormatting (h 0).1))).trans
    (.format fun entry hentry => ?_)
  rcases List.mem_cons.1 hentry with rfl | hentry
  · exact .inr (h _)
  · exact .inl hentry

theorem reopenAll_leads {entries : List FormatEntry}
    (h : ∀ entry ∈ entries, scope.Remembers entry) : Leads scope b (b.reopenAll entries) := by
  induction entries generalizing b with
  | nil => exact .refl b
  | cons entry rest ih =>
    obtain ⟨hentry, hrest⟩ := List.forall_mem_cons.1 h
    cases entry with
    | marker => exact ih hrest
    | element id tag => exact (rememberOpened_leads fun _ => hentry).trans (ih hrest)

/-- Formatting elements that were cut off are opened again by edits. -/
theorem reopenFormatting_leads : Leads scope b b.reopenFormatting := by
  intro hfits
  have hcutOff : ∀ entry ∈ (b.formatting.takeWhile b.isCutOff).reverse,
      scope.Remembers entry := by
    intro entry hentry
    refine hfits.remembers entry ?_
    exact (List.takeWhile_prefix _).subset (List.mem_reverse.1 hentry)
  have hdrop : Leads scope b
      { b with formatting := b.formatting.drop (b.formatting.takeWhile b.isCutOff).length } :=
    .format fun _ h => .inl (List.mem_of_mem_drop h)
  exact (hdrop.trans (reopenAll_leads hcutOff)) hfits

theorem insertFormatting_leads {tag : Tag} (h : ∀ id, scope.Remembers (.element id tag)) :
    Leads scope b (b.insertFormatting tag) := by
  refine Leads.trans (.ite (fun _ => ?_) fun _ => .refl b) (rememberOpened_leads h)
  split
  · exact removeFormatting_leads _
  · exact .refl b

theorem closeOther_leads (name : String) : Leads scope b (b.closeOther name) :=
  .ite (fun _ => (closeImpliedExcept_leads name).trans (popThrough_leads name)) fun _ => .refl b

theorem mem_recentFormatting {entry : FormatEntry} (h : entry ∈ b.recentFormatting) :
    entry ∈ b.formatting :=
  (List.takeWhile_prefix _).subset h

theorem mem_formatting_of_findFormatting? {name : String} {id : CellId} {tag : Tag}
    (h : b.findFormatting? name = some (id, tag)) : .element id tag ∈ b.formatting := by
  obtain ⟨entry, hentry, hsome⟩ := List.exists_of_findSome?_eq_some h
  cases entry with
  | marker => cases hsome
  | element id' tag' =>
    simp only [Option.ite_none_right_eq_some, Option.some.injEq, Prod.mk.injEq] at hsome
    obtain ⟨-, rfl, rfl⟩ := hsome
    exact mem_recentFormatting hentry

/-! ### Splitting -/

theorem splitAtLast?_eq_some {p : OpenElement → Bool} {l before after : List OpenElement}
    {last : OpenElement} (h : splitAtLast? p l = some (before, last, after)) :
    l = before ++ last :: after := by
  fun_induction splitAtLast? p l generalizing before with
  | case1 => cases h
  | case2 e rest before' last' after' hrest ih =>
    simp only [Option.some.injEq, Prod.mk.injEq] at h
    obtain ⟨rfl, rfl, rfl⟩ := h
    rw [ih hrest]
    rfl
  | case3 e rest _ _ _ =>
    simp only [Option.some.injEq, Prod.mk.injEq] at h
    obtain ⟨rfl, rfl, rfl⟩ := h
    rfl
  | case4 => cases h

/-- No element inside the one in reach is a bound. -/
theorem bound_of_reaches {bound : Name → Bool} {id : CellId} {opened : List OpenElement}
    (h : reaches bound (·.id == id) opened = true) :
    (∃ target rest, opened = opened.takeWhile (fun e => e.id ≠ id) ++ target :: rest ∧
        target.id = id) ∧
      ∀ e ∈ opened.takeWhile (fun e => e.id ≠ id), bound e.name = false := by
  induction opened with
  | nil => cases h
  | cons e rest ih =>
    rw [reaches] at h
    by_cases he : e.id = id
    · have hnil : (e :: rest).takeWhile (fun e => e.id ≠ id) = [] :=
        List.takeWhile_cons_of_neg (by simp [he])
      rw [hnil]
      exact ⟨⟨e, rest, rfl, he⟩, fun _ h => absurd h List.not_mem_nil⟩
    · have hcons : (e :: rest).takeWhile (fun e => e.id ≠ id) =
          e :: rest.takeWhile (fun e => e.id ≠ id) :=
        List.takeWhile_cons_of_pos (by simp [he])
      rw [if_neg (by simpa using he)] at h
      split at h
      · cases h
      · next hbound =>
        obtain ⟨⟨target, more, hsplit, htarget⟩, hrest⟩ := ih h
        rw [hcons]
        refine ⟨⟨target, more, congrArg (e :: ·) hsplit, htarget⟩, ?_⟩
        exact List.forall_mem_cons.2 ⟨by simpa using hbound, hrest⟩

theorem fits_through {s : Split} (h : s.builder.Fits scope) (count : Nat) (e : OpenElement) :
    (s.through count e).builder.Fits scope := by
  rw [Split.through]
  split
  · exact (removeFormatting_leads e.id h).1
  · split
    · exact h
    · next tag hfind =>
      obtain ⟨entry, hentry, hsome⟩ := List.exists_of_findSome?_eq_some hfind
      have htag : ∀ id, scope.Remembers (.element id tag) := by
        cases entry with
        | marker => cases hsome
        | element id' tag' =>
          simp only [Option.ite_none_right_eq_some, Option.some.injEq] at hsome
          rw [← hsome.2]
          exact fun _ => h.remembers (.element id' tag') hentry
      have hcreate : (s.builder.create ⟨.html, tag.name⟩ tag.attributes).2.Fits scope :=
        fits_create h
      refine ⟨fun entry hentry => ?_, hcreate.enters_mode, hcreate.enters_returnMode,
        hcreate.enters_templateModes, hcreate.raw_eq⟩
      obtain ⟨old, hold, rfl⟩ := List.mem_map.1 hentry
      split
      · exact htag _
      · exact hcreate.remembers old hold

theorem fits_throughAll {s : Split} (h : s.builder.Fits scope) (count : Nat)
    (between : List OpenElement) : (s.throughAll count between).builder.Fits scope := by
  induction between generalizing s count with
  | nil => exact h
  | cons e rest ih => exact ih (fits_through h count e) (count + 1)

theorem mem_insertEntry {id : CellId} {new entry : FormatEntry} {l : List FormatEntry}
    (h : entry ∈ insertEntry id new l) : entry = new ∨ entry ∈ l := by
  induction l with
  | nil => exact .inl (List.mem_singleton.1 h)
  | cons first rest ih =>
    rw [insertEntry] at h
    split at h
    · exact List.mem_cons.1 h
    · rcases List.mem_cons.1 h with rfl | h
      · exact .inr List.mem_cons_self
      · exact (ih h).imp_right (List.mem_cons_of_mem _)

theorem fits_put {s : Split} (h : s.builder.Fits scope) (outer : List OpenElement) :
    (s.put outer).Fits scope := by
  have hdetach : Builder.Fits scope
      { s.builder with arena := s.builder.arena.detach s.last } := h
  cases outer with
  | nil => exact fits_putAt hdetach
  | cons ancestor more => exact fits_putAt hdetach

theorem mem_entries {s : Split} {formatting : List FormatEntry} {id : CellId}
    {entry e : FormatEntry} (h : e ∈ s.entries formatting id entry) :
    e = entry ∨ e ∈ formatting := by
  rw [Split.entries] at h
  split at h
  · obtain ⟨old, hold, rfl⟩ := List.mem_map.1 h
    split
    · exact .inl rfl
    · exact .inr hold
  · exact mem_insertEntry (List.mem_filter.1 h).1

theorem fits_splitAround {id : CellId} {tag : Tag} (htag : scope.Remembers (.element id tag))
    (inner : List OpenElement) (block : OpenElement) (between outer : List OpenElement)
    (h : b.Fits scope) : (b.splitAround id tag inner block between outer).Fits scope := by
  have hsplit := fits_throughAll (s := ⟨b, block.id, [], none⟩) h 1 between
  rw [splitAround]
  generalize Split.throughAll ⟨b, block.id, [], none⟩ 1 between = s at hsplit
  have hcreate : ((s.put outer).create ⟨.html, tag.name⟩ tag.attributes).2.Fits scope :=
    fits_create (fits_put hsplit outer)
  refine ⟨fun entry hentry => ?_, hcreate.enters_mode, hcreate.enters_returnMode,
    hcreate.enters_templateModes, hcreate.raw_eq⟩
  rcases mem_entries hentry with rfl | hentry
  · exact htag
  · exact hcreate.remembers entry hentry

theorem splitAround_leads {target : OpenElement} {tag : Tag} {block : OpenElement}
    {inner between outer : List OpenElement}
    (opened : b.opened = inner ++ block :: (between ++ target :: outer))
    (bound : ∀ e ∈ inner ++ block :: between, Name.boundsDefault e.name = false)
    (h : scope.Remembers (.element target.id tag)) :
    Leads scope b (b.splitAround target.id tag inner block between outer) := by
  intro hfits
  have hedit := Edit.splitAround b opened bound h hfits.remembers
  exact ⟨fits_splitAround h inner block between outer hfits, .single hedit⟩

theorem closeFormattingRounds_leads (name : String) (rounds : Nat) :
    Leads scope b (closeFormattingRounds name rounds b) := by
  induction rounds generalizing b with
  | zero => exact .refl b
  | succ rounds ih =>
    intro hfits
    rw [closeFormattingRounds]
    split
    · exact closeOther_leads name hfits
    · next id tag hfind =>
      have htag : scope.Remembers (.element id tag) :=
        hfits.remembers _ (mem_formatting_of_findFormatting? hfind)
      split
      · exact removeFormatting_leads id hfits
      · split
        · exact Leads.refl b hfits
        · next hreaches =>
          rw [Bool.not_eq_true', Bool.not_eq_false] at hreaches
          obtain ⟨⟨target, outer, hopened, htarget⟩, hbound⟩ := bound_of_reaches hreaches
          have houter : b.opened.drop ((b.opened.takeWhile fun e => e.id ≠ id).length + 1) =
              outer := by
            generalize b.opened.takeWhile (fun e => e.id ≠ id) = inside at hopened
            rw [hopened, List.drop_length_add_append]
            rfl
          simp only [houter]
          split
          · have hclose : Leads scope b { b with opened := outer } := by
              refine .close ?_
              rw [hopened]
              exact ((List.sublist_cons_self target outer).trans (List.sublist_append_right _ _))
            exact (hclose.trans (removeFormatting_leads id)) hfits
          · next inner block between hsplit =>
            have hinside := splitAtLast?_eq_some hsplit
            rw [hinside] at hopened hbound
            rw [← htarget] at htag ⊢
            refine ((splitAround_leads ?_ hbound htag).trans ih) hfits
            rw [hopened, List.append_assoc, List.cons_append]

/-- The end tag of a formatting element leads to its end by edits. -/
theorem closeFormatting_leads (name : String) : Leads scope b (b.closeFormatting name) := by
  rw [closeFormatting]
  split
  · next e rest hopened =>
    refine .ite (fun _ => .close ?_) fun _ => closeFormattingRounds_leads name 8
    rw [hopened]
    exact List.sublist_cons_self e rest
  · exact .refl b

theorem closeOuterLink_leads : Leads scope b b.closeOuterLink := by
  rw [closeOuterLink]
  split
  · exact .refl b
  · exact ((closeFormatting_leads "a").trans (removeFormatting_leads _)).trans
      (removeOpen_leads _)

end SlimTemplate.Html
