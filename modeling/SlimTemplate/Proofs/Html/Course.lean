import SlimTemplate.Proofs.Html.Rules

/-!
# The course of construction

A comment is put into the tree by the first step that takes it, after the characters that a table
holds back. Taking tokens one after the other is thus a sequence of edits and of comments put in,
and what both preserve holds of every finished state.

## Main definitions

* `Html.Builder.Notes`: one comment put into the tree.
* `Html.Course`: a sequence of edits and of comments put into the tree.

## Main statements

* `Html.take_comment`: a comment is taken by edits and is then put in.
* `Html.takeAll_course`, `Html.run_course`: tokens and whole texts are taken on a course.
-/

namespace SlimTemplate.Html

open Builder

/-- Whether a comment goes to the document itself in this mode. -/
def Mode.isOutside : Mode → Bool
  | .initial | .beforeHtml | .afterAfterBody | .afterAfterFrameset => true
  | _ => false

/-- One comment put into the tree. -/
inductive Builder.Notes (data : Text) (b : Builder) : Builder → Prop
  | here : Notes data b (b.insertComment data)
  | atRoot (h : b.mode = .afterBody) : Notes data b (b.appendComment b.rootId data)
  | outside (h : b.mode.isOutside = true) :
      Notes data b (b.appendComment Arena.document data)

variable {scope : Scope} {b b' b'' : Builder} {data : Text} {token : Token}

theorem Builder.Notes.fits (h : b.Notes data b') (hfits : b.Fits scope) : b'.Fits scope := by
  cases h with
  | here =>
    rw [insertComment]
    exact fits_putAt (b := { b with arena := (b.arena.add (.comment data)).2 }) hfits
  | atRoot => exact hfits
  | outside => exact hfits

/-! ## One comment -/

/-- Outside of raw text and of text in a table a comment is put in at once. -/
theorem stepByMode_comment (b : Builder) (data : Text) (htext : b.mode ≠ .text)
    (htable : b.mode ≠ .inTableText) :
    ∃ b', b.stepByMode (.comment data) = .done b' ∧ b.Notes data b' := by
  unfold stepByMode
  split
  · next hmode => exact ⟨_, rfl, .outside (by rw [hmode]; rfl)⟩
  · next hmode => exact ⟨_, rfl, .outside (by rw [hmode]; rfl)⟩
  all_goals first
    | next hmode => exact absurd hmode htext
    | next hmode => exact absurd hmode htable
    | exact ⟨_, rfl, .here⟩
    | next hmode => exact ⟨_, rfl, .atRoot hmode⟩
    | next hmode => exact ⟨_, rfl, .outside (by rw [hmode]; rfl)⟩

theorem step_comment (b : Builder) (data : Text) (htext : b.mode ≠ .text)
    (htable : b.mode ≠ .inTableText) :
    ∃ b', b.step (.comment data) = .done b' ∧ b.Notes data b' := by
  rw [step]
  split
  · exact ⟨_, rfl, .here⟩
  · exact stepByMode_comment b data htext htable

/-- A comment is put in, or is looked at again after the characters that a table holds back. Where
raw text is read it is lost. -/
theorem step_comment_cases (scope : Scope) (b : Builder) (data : Text) :
    (∃ b', b.step (.comment data) = .done b' ∧ (b.Notes data b' ∨
      b.mode = .text ∧ Leads scope b b')) ∨
    ∃ x, b.step (.comment data) = .again (x.goto x.returnMode) (.comment data) ∧
      b.mode = .inTableText ∧ Leads scope b x := by
  rw [step]
  split
  · exact .inl ⟨_, rfl, .inl .here⟩
  · by_cases htext : b.mode = .text
    · refine .inl ⟨b.pop.goto b.returnMode, ?_, .inr ⟨htext, ?_⟩⟩
      · simp only [stepByMode, htext, takeText]
      · exact pop_leads.trans (gotoReturn_leads (b := b.pop))
    · by_cases htable : b.mode = .inTableText
      · refine .inr ⟨_, ?_, htable, flush_leads⟩
        simp only [stepByMode, htable, takeInTableText]
      · obtain ⟨b', hstep, hnotes⟩ := stepByMode_comment b data htext htable
        exact .inl ⟨b', hstep, .inl hnotes⟩

/-- Whatever a comment is taken for, edits come first. -/
theorem takeRounds_comment (scope : Scope) (b : Builder) (data : Text) (rounds : Nat) :
    ∃ x, Leads scope b x ∧ (takeRounds rounds b (.comment data) = x ∨
      x.Notes data (takeRounds rounds b (.comment data))) := by
  induction rounds generalizing b with
  | zero => exact ⟨b, .refl b, .inl rfl⟩
  | succ rounds ih =>
    rw [takeRounds]
    rcases step_comment_cases scope b data with
      ⟨b', hstep, hnotes | ⟨-, hleads⟩⟩ | ⟨x, hstep, -, hleads⟩
    · rw [hstep]
      exact ⟨b, .refl b, .inr hnotes⟩
    · rw [hstep]
      exact ⟨b', hleads, .inl rfl⟩
    · rw [hstep]
      obtain ⟨y, hy, hend⟩ := ih (x.goto x.returnMode)
      exact ⟨y, (hleads.trans gotoReturn_leads).trans hy, hend⟩

/-- Whether comments are never read as raw text within a scope. -/
structure Scope.IsMarkup (scope : Scope) : Prop where
  not_enters_text : ¬scope.enters .text
  not_holdsRaw : ¬scope.holdsRaw

theorem Scope.IsMarkup.mode_ne (h : scope.IsMarkup) (hfits : b.Fits scope) : b.mode ≠ .text :=
  fun hmode => h.not_enters_text (hmode ▸ hfits.enters_mode)

theorem Scope.IsMarkup.returnMode_ne (h : scope.IsMarkup) (hfits : b.Fits scope) :
    b.returnMode ≠ .text ∧ b.returnMode ≠ .inTableText :=
  ⟨fun hmode => h.not_enters_text (hmode ▸ hfits.enters_returnMode),
    (hfits.raw_eq.resolve_left h.not_holdsRaw).2⟩

/-- Where no raw text is read, two rounds are enough to put a comment in. -/
theorem takeRounds_comment_notes (hscope : scope.IsMarkup) (hfits : b.Fits scope) (data : Text)
    (rounds : Nat) :
    ∃ x, Leads scope b x ∧ x.Notes data (takeRounds (rounds + 2) b (.comment data)) := by
  rw [takeRounds]
  rcases step_comment_cases scope b data with
    ⟨b', hstep, hnotes | ⟨htext, -⟩⟩ | ⟨x, hstep, -, hleads⟩
  · rw [hstep]
    exact ⟨b, .refl b, hnotes⟩
  · exact absurd htext (hscope.mode_ne hfits)
  · obtain ⟨htext, htable⟩ := hscope.returnMode_ne (hleads hfits).1
    obtain ⟨b', hsecond, hnotes⟩ := step_comment (x.goto x.returnMode) data htext htable
    simp only [hstep, takeRounds, hsecond]
    exact ⟨_, hleads.trans gotoReturn_leads, hnotes⟩

theorem take_comment_eq (b : Builder) (data : Text) :
    b.take (.comment data) =
      takeRounds (4 * b.opened.length + 32) { b with dropLineFeed := false } (.comment data) :=
  rfl

theorem keepLineFeed_leads : Leads scope b { b with dropLineFeed := false } :=
  .idle rfl rfl rfl id

/-- A comment is taken by edits and is then put in. -/
theorem take_comment (hscope : scope.IsMarkup) (hfits : b.Fits scope) (data : Text) :
    ∃ x, Leads scope b x ∧ x.Notes data (b.take (.comment data)) := by
  obtain ⟨x, hleads, hnotes⟩ := takeRounds_comment_notes hscope
    (keepLineFeed_leads hfits).1 data (4 * b.opened.length + 30)
  rw [take_comment_eq]
  exact ⟨x, keepLineFeed_leads.trans hleads, hnotes⟩

/-! ## Courses -/

/-- A sequence of edits, and of comments with the given data put into the tree. -/
inductive Course (scope : Scope) (b : Builder) : List Text → Builder → Prop
  | start : Course scope b [] b
  | edit {datas : List Text} {x y : Builder} (h : Course scope b datas x) (hedit : Edit scope x y) :
      Course scope b datas y
  | note {datas : List Text} {x y : Builder} {data : Text} (h : Course scope b datas x)
      (hnotes : x.Notes data y) : Course scope b (datas ++ [data]) y

theorem Course.leads {datas : List Text} (h : Course scope b datas b') (hfits : b'.Fits scope)
    (hleads : Leads scope b' b'') : Course scope b datas b'' ∧ b''.Fits scope := by
  obtain ⟨hfits'', hedits⟩ := hleads hfits
  refine ⟨?_, hfits''⟩
  clear hleads hfits''
  induction hedits with
  | refl => exact h
  | tail _ hedit ih => exact ih.edit hedit

/-- The data of a token that is a comment. -/
def Token.comment? : Token → Option Text
  | .comment data => some data
  | _ => none

/-- Where no raw text is read, taking tokens puts their comments in one by one. -/
theorem Course.takeAll (hscope : scope.IsMarkup) {datas : List Text}
    (h : Course scope b datas b') (hfits : b'.Fits scope) {tokens : List Token}
    (htokens : ∀ token ∈ tokens, scope.Allows token) :
    Course scope b (datas ++ tokens.filterMap Token.comment?) (b'.takeAll tokens) ∧
      (b'.takeAll tokens).Fits scope := by
  induction tokens generalizing b' datas with
  | nil =>
    rw [List.filterMap_nil, List.append_nil]
    exact ⟨h, hfits⟩
  | cons token tokens ih =>
    obtain ⟨htoken, hrest⟩ := List.forall_mem_cons.1 htokens
    rw [Builder.takeAll, List.foldl_cons]
    by_cases hcomment : ∃ data, token = .comment data
    · obtain ⟨data, rfl⟩ := hcomment
      obtain ⟨x, hleads, hnotes⟩ := take_comment hscope hfits data
      obtain ⟨hcourse, hx⟩ := h.leads hfits hleads
      have := ih (hcourse.note hnotes) (hnotes.fits hx) hrest
      rwa [List.append_assoc] at this
    · have hother : ∀ data, token ≠ .comment data := fun data heq => hcomment ⟨data, heq⟩
      have hnone : token.comment? = none := by
        cases token with
        | comment data => exact absurd rfl (hother data)
        | _ => rfl
      rw [List.filterMap_cons_none hnone]
      obtain ⟨hcourse, hfits'⟩ := h.leads hfits (take_leads htoken hother)
      exact ih hcourse hfits' hrest

/-- Whatever is read, taking tokens puts some comments in. -/
theorem Course.takeAll_some {datas : List Text} (h : Course scope b datas b')
    (hfits : b'.Fits scope) {tokens : List Token}
    (htokens : ∀ token ∈ tokens, scope.Allows token) :
    ∃ more, Course scope b more (b'.takeAll tokens) ∧ (b'.takeAll tokens).Fits scope := by
  induction tokens generalizing b' datas with
  | nil => exact ⟨datas, h, hfits⟩
  | cons token tokens ih =>
    obtain ⟨htoken, hrest⟩ := List.forall_mem_cons.1 htokens
    rw [Builder.takeAll, List.foldl_cons]
    by_cases hcomment : ∃ data, token = .comment data
    · obtain ⟨data, rfl⟩ := hcomment
      obtain ⟨x, hleads, hend⟩ := takeRounds_comment scope
        { b' with dropLineFeed := false } data (4 * b'.opened.length + 32)
      rw [← take_comment_eq] at hend
      obtain ⟨hcourse, hx⟩ := h.leads hfits (keepLineFeed_leads.trans hleads)
      rcases hend with hend | hnotes
      · rw [hend]
        exact ih hcourse hx hrest
      · exact ih (hcourse.note hnotes) (hnotes.fits hx) hrest
    · have hother : ∀ data, token ≠ .comment data := fun data heq => hcomment ⟨data, heq⟩
      obtain ⟨hcourse, hfits'⟩ := h.leads hfits (take_leads htoken hother)
      exact ih hcourse hfits' hrest

theorem start_fits (scope : Scope) : Builder.start.Fits scope :=
  ⟨fun _ h => absurd h List.not_mem_nil, scope.enters_of_isInside _ rfl,
    scope.enters_of_isInside _ rfl, fun _ h => absurd h List.not_mem_nil,
    .inr ⟨rfl, by decide⟩⟩

/-- Whether a scope allows whatever may be read. -/
structure Scope.AllowsAll (scope : Scope) : Prop where
  scan : ∀ inForeign text, ∀ token ∈ (scan inForeign text).1, scope.Allows token
  scanRaw : ∀ kind name text, ∀ token ∈ (scanRaw kind name text).1, scope.Allows token
  stop : scope.Allows .stop

theorem endRaw_leads : Leads scope b { b with raw := none } := by
  refine .idle rfl rfl rfl fun hfits => ?_
  refine ⟨hfits.remembers, hfits.enters_mode, hfits.enters_returnMode,
    hfits.enters_templateModes, ?_⟩
  exact hfits.raw_eq.imp_right fun h => ⟨rfl, h.2⟩

theorem Course.takeRaw_some (hscope : scope.AllowsAll) {datas : List Text}
    (h : Course scope b datas b') (hfits : b'.Fits scope) (text : Text) :
    ∃ more, Course scope b more (b'.takeRaw text).1 ∧ (b'.takeRaw text).1.Fits scope := by
  rw [takeRaw]
  split
  · exact ⟨datas, h, hfits⟩
  · next kind _ =>
    obtain ⟨more, hcourse, htaken⟩ :=
      h.takeAll_some hfits (hscope.scanRaw kind b'.rawName text)
    exact ⟨more, hcourse.leads htaken endRaw_leads⟩

/-- Reading a whole text takes a course. -/
theorem Course.run_some (hscope : scope.AllowsAll) {datas : List Text}
    (h : Course scope b datas b') (hfits : b'.Fits scope) (text : Text) :
    ∃ more, Course scope b more (b'.run text) := by
  fun_induction Builder.run b' text generalizing datas with
  | case1 b' text _ =>
    obtain ⟨more, hcourse, htaken⟩ := h.takeRaw_some hscope hfits text
    obtain ⟨all, hend, -⟩ := hcourse.takeAll_some htaken
      (List.forall_mem_singleton.2 hscope.stop)
    exact ⟨all, hend⟩
  | case2 b' text =>
    rename_i ih
    obtain ⟨more, hcourse, htaken⟩ := h.takeRaw_some hscope hfits text
    obtain ⟨all, hall, hread⟩ := hcourse.takeAll_some htaken
      (hscope.scan (b'.takeRaw text).1.inForeign (b'.takeRaw text).2)
    exact ih hall hread

end SlimTemplate.Html
