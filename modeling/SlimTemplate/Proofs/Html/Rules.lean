import SlimTemplate.Proofs.Html.Edit

/-!
# The rules are edits

Whatever a token is, if it is no comment, the rules of every mode take it by edits that keep the
state within a scope which allows the token. A rule that hands the token on hands on the same token.

## Main definitions

* `Html.Scope.Allows`: what a scope must permit for a token to be taken within it.
* `Html.Step.LeadsFrom`: a step made of edits.

## Main statements

* `Html.step_leads`: one token by the rules that apply to it.
* `Html.take_leads`: a token taken as often as the rules ask for it.
-/

namespace SlimTemplate.Html

open Builder

/-- Whether markup is not read inside of an element. -/
def isRawElement : String → Bool
  | "title" | "noframes" | "style" | "noscript" | "script" | "textarea" | "xmp" | "iframe"
  | "noembed" | "plaintext" => true
  | _ => false

/-- Whether an end tag may close the body, the root or a set of frames. -/
def closesDocument : String → Bool
  | "body" | "html" | "frameset" => true
  | _ => false

/-- Whether an element may be opened that no tag started. -/
def isImplied : String → Bool
  | "html" | "head" | "body" | "p" | "br" => true
  | _ => false

/-- What a scope must permit for a start tag to be taken. -/
structure Scope.AllowsStart (scope : Scope) (tag : Tag) : Prop where
  makes : scope.makes ⟨.html, tag.name⟩ tag.attributes
  merges : tag.name = "html" ∨ tag.name = "body" → scope.Merges tag.attributes
  image : tag.name = "image" → scope.makes ⟨.html, "img"⟩ tag.attributes
  foreign : ∀ space, space ≠ .html → ∀ name, name = tag.name ∨ name = (respell space tag).name →
    scope.makes ⟨space, name⟩ (respell space tag).attributes ∧
      (tag.selfClosing = false → scope.opensForeign ⟨space, name⟩)
  entersForeign : tag.name = "svg" ∨ tag.name = "math" → scope.entersForeign
  /-- The parts of a table that others need around them. -/
  around : isInnerPart tag.name = true → scope.makes ⟨.html, "colgroup"⟩ [] ∧
    scope.makes ⟨.html, "tbody"⟩ [] ∧ scope.makes ⟨.html, "tr"⟩ []
  raw : isRawElement tag.name = true → scope.holdsRaw ∧ scope.enters .text
  frameset : tag.name = "frameset" → scope.dropsBody

/-- What a scope must permit for a token to be taken. -/
structure Scope.Allows (scope : Scope) (token : Token) : Prop where
  implied : ∀ name, isImplied name = true → scope.makes ⟨.html, name⟩ []
  start : ∀ tag, token = .tag tag → tag.kind = .start → scope.AllowsStart tag
  stop : ∀ tag, token = .tag tag → tag.kind = .stop → closesDocument tag.name = true →
    ∀ mode : Mode, mode ≠ .text → scope.enters mode

/-- A step that edits make and that hands on no other token. -/
def Step.LeadsFrom (scope : Scope) (b : Builder) (token : Token) : Step → Prop
  | .done b' => Leads scope b b'
  | .again b' token' => token' = token ∧ Leads scope b b'

variable {scope : Scope} {b b' : Builder} {token : Token} {tag : Tag}

theorem Step.LeadsFrom.done (h : Leads scope b b') : (Step.done b').LeadsFrom scope b token :=
  h

theorem Step.LeadsFrom.again (h : Leads scope b b') :
    (Step.again b' token).LeadsFrom scope b token :=
  ⟨rfl, h⟩

theorem Step.LeadsFrom.stay (b : Builder) : (Step.done b).LeadsFrom scope b token :=
  Leads.refl b

theorem Step.LeadsFrom.of_leads {step : Step} (h : Leads scope b b')
    (hstep : step.LeadsFrom scope b' token) : step.LeadsFrom scope b token := by
  cases step with
  | done b'' => exact h.trans hstep
  | again b'' token' => exact ⟨hstep.1, h.trans hstep.2⟩

theorem Step.LeadsFrom.ite {p : Prop} [Decidable p] {step step' : Step}
    (h : p → step.LeadsFrom scope b token) (h' : ¬p → step'.LeadsFrom scope b token) :
    (if p then step else step').LeadsFrom scope b token := by
  split
  · next hp => exact h hp
  · next hp => exact h' hp

/-! ## Elements of a tag -/

theorem insert_leads (h : scope.AllowsStart tag) (hempty : isEmptyElement tag.name = false) :
    Leads scope b (b.insert tag) :=
  insertOpened_leads h.makes (.html hempty)

theorem insertVoid_leads (h : scope.AllowsStart tag) : Leads scope b (b.insertVoid tag) :=
  insertClosed_leads h.makes

theorem insertImplied_leads {name : String} (h : scope.makes ⟨.html, name⟩ [])
    (hempty : isEmptyElement name = false) : Leads scope b (b.insertImplied name) :=
  insertOpened_leads h (.html hempty)

theorem isEmptyElement_of_isRawElement {name : String} (h : isRawElement name = true) :
    isEmptyElement name = false := by
  unfold isRawElement at h
  split at h
  case h_11 => cases h
  all_goals rfl

theorem insertRaw_leads {kind : RawKind} (h : scope.AllowsStart tag)
    (hraw : isRawElement tag.name = true) : Leads scope b (b.insertRaw tag kind) := by
  intro hfits
  obtain ⟨hholds, htext⟩ := h.raw hraw
  obtain ⟨hfits', hedits⟩ := insert_leads h (isEmptyElement_of_isRawElement hraw) hfits
  refine ⟨⟨hfits'.remembers, htext, hfits.enters_mode, hfits'.enters_templateModes, .inl hholds⟩,
    hedits.tail ?_⟩
  exact .steer rfl (.refl _) (.inl rfl)

theorem mergeRoot_leads (h : scope.Merges tag.attributes) : Leads scope b (b.mergeRoot tag) :=
  .ite (fun _ => .refl b) fun _ => .of_edit (.merge b b.rootId h) id

/-! ## Templates -/

theorem templateModes_leads {modes : List Mode}
    (h : ∀ mode ∈ modes, mode ∈ b.templateModes ∨ mode.isInside = true) :
    Leads scope b { b with templateModes := modes } := by
  refine .idle rfl rfl rfl fun hfits => ?_
  refine ⟨hfits.remembers, hfits.enters_mode, hfits.enters_returnMode, ?_, hfits.raw_eq⟩
  intro mode hmode
  exact (h mode hmode).elim (hfits.enters_templateModes mode) (scope.enters_of_isInside mode)

theorem openTemplate_leads (h : scope.AllowsStart tag) (hname : tag.name = "template") :
    Leads scope b (b.openTemplate tag) := by
  refine ((insert_leads h (hname ▸ rfl)).trans markFormatting_leads).trans noFrameset_leads |>.trans
    (gotoInside_leads rfl) |>.trans (templateModes_leads ?_)
  intro mode hmode
  rcases List.mem_cons.1 hmode with rfl | hmode
  · exact .inr rfl
  · exact .inl hmode

theorem leaveTemplate_leads : Leads scope b b.leaveTemplate :=
  ((popThrough_leads "template").trans clearFormatting_leads).trans
    (templateModes_leads fun _ h => .inl (List.mem_of_mem_tail h)) |>.trans gotoReset_leads

theorem closeTemplate_leads : Leads scope b b.closeTemplate :=
  .ite (fun _ => (closeImplied_leads _).trans leaveTemplate_leads) fun _ => .refl b

theorem stopInTemplate_leads : (b.stopInTemplate).LeadsFrom scope b .stop :=
  .ite (fun _ => ⟨rfl, leaveTemplate_leads⟩) fun _ => Leads.refl b

/-! ## Before the body -/

theorem insertHead_leads (h : scope.makes ⟨.html, "head"⟩ tag.attributes) :
    Leads scope b (b.insertHead tag) := by
  refine (insertOpened_leads h (.html rfl)).trans
    ((Leads.steer ?_ ?_ ?_ ?_).trans (gotoInside_leads rfl))
  · exact rfl
  · exact .refl _
  · exact .inr ⟨List.mem_cons_self, rfl⟩
  · exact id

theorem takeInitial_leads (hcomment : ∀ data, token ≠ .comment data) :
    (b.takeInitial token).LeadsFrom scope b token := by
  unfold takeInitial
  split
  · exact absurd rfl (hcomment _)
  · refine .ite (fun _ => Leads.refl b) fun _ => ⟨rfl, gotoInside_leads rfl⟩

theorem takeBeforeHtml_leads (h : scope.Allows token) (hcomment : ∀ data, token ≠ .comment data) :
    (b.takeBeforeHtml token).LeadsFrom scope b token := by
  unfold takeBeforeHtml
  split
  · exact absurd rfl (hcomment _)
  · exact (insertRoot_leads (h.start _ rfl rfl).makes).trans (gotoInside_leads rfl)
  · refine .ite (fun _ => Leads.refl b) fun _ => ⟨rfl, ?_⟩
    exact (insertRoot_leads (h.implied _ rfl)).trans (gotoInside_leads rfl)

theorem starts_eq_true {name : String} (h : token.starts name = true) :
    ∃ tag, token = .tag tag ∧ tag.kind = .start ∧ tag.name = name := by
  cases token with
  | tag tag =>
    rw [Token.starts, Bool.and_eq_true, decide_eq_true_eq, decide_eq_true_eq] at h
    exact ⟨tag, rfl, h⟩
  | _ => cases h

theorem takeBeforeHead_leads (h : scope.Allows token) (hcomment : ∀ data, token ≠ .comment data) :
    (b.takeBeforeHead token).LeadsFrom scope b token := by
  have hhead : (Step.again (b.insertHead (.plain "head")) token).LeadsFrom scope b token :=
    ⟨rfl, insertHead_leads (h.implied _ rfl)⟩
  unfold takeBeforeHead
  split
  · exact absurd rfl (hcomment _)
  · refine .ite (fun _ => Leads.refl b) fun _ => ?_
    split
    · next tag _ _ =>
      have hstart : ∀ name, (Token.tag tag).starts name = true →
          scope.AllowsStart tag ∧ tag.name = name := by
        intro name hstarts
        obtain ⟨tag', heq, hkind, hname⟩ := starts_eq_true hstarts
        obtain rfl : tag = tag' := by simpa using heq
        exact ⟨h.start _ rfl hkind, hname⟩
      refine .ite (fun hhtml => ?_) fun _ => .ite (fun hhead => ?_) fun _ => hhead
      · obtain ⟨hallows, hname⟩ := hstart _ hhtml
        exact mergeRoot_leads (hallows.merges (.inl hname))
      · obtain ⟨hallows, hname⟩ := hstart _ hhead
        exact insertHead_leads (hname ▸ hallows.makes)
    · exact hhead

theorem leave_leads : (Step.again (b.pop.goto .afterHead) token).LeadsFrom scope b token :=
  ⟨rfl, pop_leads.trans (gotoInside_leads rfl)⟩

theorem takeInHead_leads (h : scope.Allows token) (hcomment : ∀ data, token ≠ .comment data) :
    (b.takeInHead token).LeadsFrom scope b token := by
  simp only [takeInHead]
  split
  · exact .ite (fun _ => insertChar_leads _) fun _ => leave_leads
  · exact absurd rfl (hcomment _)
  · next tag =>
    split
    · next hkind =>
      have hstart := h.start _ rfl hkind
      refine .ite (fun _ => insertVoid_leads hstart) fun _ => ?_
      split
      · next hname => exact mergeRoot_leads (hstart.merges (.inl hname))
      iterate 5 next hname => exact insertRaw_leads hstart (hname ▸ rfl)
      · next hname => exact openTemplate_leads hstart hname
      · exact Leads.refl b
      · exact leave_leads
    · split
      · exact pop_leads.trans (gotoInside_leads rfl)
      · exact closeTemplate_leads
      · exact .ite (fun _ => leave_leads) fun _ => Leads.refl b
  · exact leave_leads

theorem isHeadElement_cases {name : String} (h : isHeadElement name = true) :
    isHeadVoid name = true ∨ name = "noframes" ∨ name = "script" ∨ name = "style" ∨
      name = "template" ∨ name = "title" := by
  unfold isHeadElement at h
  rw [Bool.or_eq_true] at h
  refine h.imp_right fun h => ?_
  split at h
  · exact .inl rfl
  · exact .inr (.inl rfl)
  · exact .inr (.inr (.inl rfl))
  · exact .inr (.inr (.inr (.inl rfl)))
  · exact .inr (.inr (.inr (.inr rfl)))
  · cases h

/-- How the start of an element that belongs into the head is taken. -/
theorem takeInHead_cases (b : Builder) (hkind : tag.kind = .start)
    (hname : isHeadElement tag.name = true) :
    b.takeInHead (.tag tag) = .done (b.insertVoid tag) ∨
      tag.name = "template" ∧ b.takeInHead (.tag tag) = .done (b.openTemplate tag) ∨
      isRawElement tag.name = true ∧
        ∃ kind, b.takeInHead (.tag tag) = .done (b.insertRaw tag kind) := by
  obtain ⟨kind, name, attributes, selfClosing⟩ := tag
  obtain rfl : kind = .start := hkind
  rcases isHeadElement_cases hname with hvoid | rfl | rfl | rfl | rfl | rfl
  · refine .inl ?_
    simp only [takeInHead]
    exact if_pos hvoid
  · exact .inr (.inr ⟨rfl, .verbatim, rfl⟩)
  · exact .inr (.inr ⟨rfl, .script, rfl⟩)
  · exact .inr (.inr ⟨rfl, .verbatim, rfl⟩)
  · exact .inr (.inl ⟨rfl, rfl⟩)
  · exact .inr (.inr ⟨rfl, .references, rfl⟩)

/-- An element that belongs into the head is put there after the head has been closed. -/
theorem takeIntoHead_leads (h : scope.AllowsStart tag) (hkind : tag.kind = .start)
    (hname : isHeadElement tag.name = true) :
    (Step.mapState (fun b' => b'.removeOpen b.head.id)
      ((b.push b.head).takeInHead (.tag tag))).LeadsFrom scope b token := by
  have hinto (hempty : isEmptyElement tag.name = false) :
      Leads scope b (((b.push b.head).insert tag).removeOpen b.head.id) :=
    .of_edit (.intoHeadOpened b h.makes (.html hempty)) fun hfits =>
      fits_insertClosed (b := b.push b.head) hfits
  rcases takeInHead_cases (b.push b.head) hkind hname with
    htake | ⟨htemplate, htake⟩ | ⟨hraw, kind, htake⟩
  · rw [htake]
    exact .of_edit (.intoHeadClosed b h.makes) fun hfits =>
      fits_insertClosed (b := b.push b.head) hfits
  · rw [htake]
    have hmode : Leads scope ((((b.push b.head).insert tag).removeOpen b.head.id).markFormatting)
        (((((b.push b.head).insert tag).removeOpen b.head.id).markFormatting).noFrameset.goto
          .inTemplate) :=
      noFrameset_leads.trans (gotoInside_leads rfl)
    refine ((hinto (htemplate ▸ rfl)).trans markFormatting_leads).trans
      (hmode.trans (templateModes_leads ?_))
    intro mode hmode
    rcases List.mem_cons.1 hmode with rfl | hmode
    · exact .inr rfl
    · exact .inl hmode
  · rw [htake]
    intro hfits
    obtain ⟨hfits', hedits⟩ := hinto (isEmptyElement_of_isRawElement hraw) hfits
    obtain ⟨hholds, htext⟩ := h.raw hraw
    refine ⟨⟨hfits'.remembers, htext, hfits.enters_mode, hfits'.enters_templateModes,
      .inl hholds⟩, hedits.tail ?_⟩
    exact .steer rfl (.refl _) (.inl rfl)

theorem takeAfterHead_leads (h : scope.Allows token) (hcomment : ∀ data, token ≠ .comment data) :
    (b.takeAfterHead token).LeadsFrom scope b token := by
  have henter : (Step.again ((b.insertImplied "body").goto .inBody) token).LeadsFrom
      scope b token :=
    ⟨rfl, (insertImplied_leads (h.implied _ rfl) rfl).trans (gotoInside_leads rfl)⟩
  simp only [takeAfterHead]
  split
  · exact .ite (fun _ => insertChar_leads _) fun _ => henter
  · exact absurd rfl (hcomment _)
  · next tag =>
    split
    · next hkind =>
      have hstart := h.start _ rfl hkind
      refine .ite (fun hname => takeIntoHead_leads hstart hkind hname) fun _ => ?_
      split
      · next hname => exact mergeRoot_leads (hstart.merges (.inl hname))
      · next hname =>
        exact ((insert_leads hstart (hname ▸ rfl)).trans noFrameset_leads).trans
          (gotoInside_leads rfl)
      · next hname => exact (insert_leads hstart (hname ▸ rfl)).trans (gotoInside_leads rfl)
      · exact Leads.refl b
      · exact henter
    · split
      · exact closeTemplate_leads
      · exact .ite (fun _ => henter) fun _ => Leads.refl b
  · exact henter

/-! ## Start tags of the body -/

theorem insertItem_leads (h : scope.AllowsStart tag) (hempty : isEmptyElement tag.name = false) :
    Leads scope b (b.insertItem tag) := by
  refine (noFrameset_leads.trans ?_).trans
    (closeParagraphInScope_leads.trans (insert_leads h hempty))
  split
  · exact (closeImpliedExcept_leads _).trans (popThrough_leads _)
  · exact .refl _

theorem insertForm_leads (h : scope.AllowsStart tag) (hname : tag.name = "form") :
    Leads scope b (b.insertForm tag) := by
  refine .ite (fun _ => .refl b) fun _ => ?_
  have hopen : Leads scope b
      (b.closeParagraphInScope.insertOpened ⟨.html, "form"⟩ tag.attributes).2 :=
    closeParagraphInScope_leads.trans (insertOpened_leads (hname ▸ h.makes) (.html rfl))
  exact .ite (fun _ => hopen) fun _ => hopen.trans (.idle rfl rfl rfl id)

theorem replaceBody_leads (h : scope.AllowsStart tag) (hname : tag.name = "frameset") :
    Leads scope b (b.replaceBody tag) := by
  rw [replaceBody]
  refine .ite (fun _ => .refl b) fun _ => ?_
  split
  · exact .refl b
  · next body hbody =>
    have hdrop : Leads scope b { b with
        arena := b.arena.detach body.id
        opened := b.opened.drop (b.opened.length - 1) } :=
      .of_edit (.dropBody b hbody (h.frameset hname)) id
    exact hdrop.trans ((insert_leads h (hname ▸ rfl)).trans (gotoInside_leads rfl))

theorem mergeBody_leads (h : scope.Merges tag.attributes) : Leads scope b (b.mergeBody tag) := by
  rw [mergeBody]
  split
  · exact .ite (fun _ => .refl b) fun _ =>
      (Leads.of_edit (.merge b _ h) id).trans noFrameset_leads
  · exact .refl b

theorem insertButton_leads (h : scope.AllowsStart tag) (hname : tag.name = "button") :
    Leads scope b (b.insertButton tag) := by
  have hclose : Leads scope b
      (if b.inScope Name.boundsDefault "button" then
        (b.closeImplied endsImplicitly).popThrough "button"
      else b) :=
    .ite (fun _ => (closeImplied_leads _).trans (popThrough_leads _)) fun _ => .refl b
  exact hclose.trans
    ((reopenFormatting_leads.trans (insert_leads h (hname ▸ rfl))).trans noFrameset_leads)

theorem insertBreak_leads (h : scope.makes ⟨.html, tag.name⟩ tag.attributes) :
    Leads scope b (b.insertBreak tag) :=
  (reopenFormatting_leads.trans (insertClosed_leads h)).trans noFrameset_leads

theorem dropLineFeed_leads : Leads scope b { b with dropLineFeed := true } :=
  .idle rfl rfl rfl id

theorem insertForeign_leads {space : Space}
    (h : scope.makes ⟨space, tag.name⟩ tag.attributes ∧
      (tag.selfClosing = false → scope.opensForeign ⟨space, tag.name⟩))
    (hin : scope.entersForeign ∨ ∃ e ∈ b.opened, e.name.space ≠ .html) :
    Leads scope b (b.insertForeign space tag) :=
  .ite (fun _ => insertClosed_leads h.1) fun hopen =>
    insertOpened_leads h.1 (.foreign (h.2 (by simpa using hopen)) hin)

theorem respell_selfClosing (space : Space) (tag : Tag) :
    (respell space tag).selfClosing = tag.selfClosing := by
  cases space <;> rfl

theorem enterForeign_leads {space : Space} (h : scope.AllowsStart tag) (hspace : space ≠ .html)
    (hname : tag.name = "svg" ∨ tag.name = "math") : Leads scope b (b.enterForeign space tag) := by
  obtain ⟨hmakes, hopens⟩ := h.foreign space hspace tag.name (.inl rfl)
  refine insertForeign_leads ⟨hmakes, fun hopen => hopens ?_⟩ (.inl (h.entersForeign hname))
  exact (respell_selfClosing space tag).symm.trans hopen

theorem modeOfSelect_isInside (mode : Mode) : (modeOfSelect mode).isInside = true := by
  cases mode <;> rfl

/-- An element that never holds anything is not opened by the rules of the body. -/
theorem startInBody_leads_of_isEmptyElement (h : scope.AllowsStart tag)
    (hempty : isEmptyElement tag.name = true) (hhead : isHeadElement tag.name = false) :
    Leads scope b (b.startInBody tag) := by
  have hvoid : ∀ {b : Builder}, Leads scope b (b.insertVoid tag) := insertVoid_leads h
  have hbreak : Leads scope b (b.insertBreak tag) := insertBreak_leads h.makes
  have hrule : Leads scope b ((b.closeParagraphInScope.insertVoid tag).noFrameset) :=
    (closeParagraphInScope_leads.trans hvoid).trans noFrameset_leads
  have hinput : Leads scope b (b.reopenFormatting.insertVoid tag) :=
    reopenFormatting_leads.trans hvoid
  obtain ⟨kind, name, attributes, selfClosing⟩ := tag
  simp only at hempty hhead
  unfold isEmptyElement at hempty
  split at hempty
  case h_2 | h_9 | h_10 => cases hhead
  case h_1 | h_3 | h_5 | h_7 | h_14 => exact hbreak
  case h_4 => exact .refl b
  case h_6 => exact hrule
  case h_8 => exact .ite (fun _ => hinput) fun _ => hinput.trans noFrameset_leads
  case h_11 | h_12 | h_13 => exact hvoid
  case h_15 => cases hempty

theorem startInBody_leads (h : scope.AllowsStart tag) (hhead : isHeadElement tag.name = false) :
    Leads scope b (b.startInBody tag) := by
  by_cases hempty : isEmptyElement tag.name = true
  · exact startInBody_leads_of_isEmptyElement h hempty hhead
  rw [Bool.not_eq_true] at hempty
  have hinsert : ∀ {b : Builder}, Leads scope b (b.insert tag) := insert_leads h hempty
  have hvoid : ∀ {b : Builder}, Leads scope b (b.insertVoid tag) := insertVoid_leads h
  simp only [startInBody]
  refine .ite (fun _ => closeParagraphInScope_leads.trans hinsert) fun _ => ?_
  refine .ite (fun _ => ?_) fun _ => ?_
  · exact (closeParagraphInScope_leads.trans (.ite (fun _ => pop_leads) fun _ => .refl _)).trans
      hinsert
  refine .ite (fun hformatting => ?_) fun _ => ?_
  · simp only [Bool.and_eq_true] at hformatting
    exact reopenFormatting_leads.trans (insertFormatting_leads fun _ => ⟨hformatting.2, h.makes⟩)
  refine .ite (fun _ => ?_) fun _ => ?_
  · exact ((reopenFormatting_leads.trans hinsert).trans markFormatting_leads).trans
      noFrameset_leads
  refine .ite (fun _ => insertBreak_leads h.makes) fun _ => ?_
  refine .ite (fun _ => .refl b) fun _ => ?_
  split
  · next hname => exact mergeRoot_leads (h.merges (.inl hname))
  · next hname => exact mergeBody_leads (h.merges (.inr hname))
  · next hname => exact replaceBody_leads h hname
  iterate 2
    exact ((closeParagraphInScope_leads.trans hinsert).trans dropLineFeed_leads).trans
      noFrameset_leads
  · exact closeParagraphInScope_leads.trans hinsert
  · next hname => exact insertForm_leads h hname
  iterate 3 exact insertItem_leads h hempty
  · next hname =>
    have hraw := h.raw (hname ▸ rfl)
    refine (closeParagraphInScope_leads.trans hinsert).trans (.idle rfl rfl rfl fun hfits => ?_)
    exact ⟨hfits.remembers, hfits.enters_mode, hfits.enters_returnMode,
      hfits.enters_templateModes, .inl hraw.1⟩
  · next hname => exact insertButton_leads h hname
  · next hname =>
    have htag : ∀ id, scope.Remembers (.element id tag) := fun _ => ⟨hname ▸ rfl, h.makes⟩
    exact closeOuterLink_leads.trans (reopenFormatting_leads.trans (insertFormatting_leads htag))
  · next hname =>
    have htag : ∀ id, scope.Remembers (.element id tag) := fun _ => ⟨hname ▸ rfl, h.makes⟩
    refine (reopenFormatting_leads.trans (.ite (fun _ => ?_) fun _ => .refl _)).trans
      (insertFormatting_leads htag)
    exact (closeFormatting_leads "nobr").trans reopenFormatting_leads
  · refine (Leads.trans ?_ (hinsert.trans noFrameset_leads)).trans (gotoInside_leads rfl)
    exact .ite (fun _ => .refl b) fun _ => closeParagraphInScope_leads
  · have hinput : Leads scope b (b.reopenFormatting.insertVoid tag) :=
      reopenFormatting_leads.trans hvoid
    exact .ite (fun _ => hinput) fun _ => hinput.trans noFrameset_leads
  iterate 3 exact hvoid
  · exact (closeParagraphInScope_leads.trans hvoid).trans noFrameset_leads
  · next hname => exact insertBreak_leads (h.image hname)
  · next hname =>
    exact (noFrameset_leads.trans dropLineFeed_leads).trans (insertRaw_leads h (hname ▸ rfl))
  · next hname =>
    exact (closeParagraphInScope_leads.trans (reopenFormatting_leads.trans
      noFrameset_leads)).trans (insertRaw_leads h (hname ▸ rfl))
  · next hname => exact noFrameset_leads.trans (insertRaw_leads h (hname ▸ rfl))
  iterate 2 next hname => exact insertRaw_leads h (hname ▸ rfl)
  · exact ((reopenFormatting_leads.trans hinsert).trans noFrameset_leads).trans
      (gotoInside_leads (modeOfSelect_isInside b.mode))
  iterate 2
    exact (Leads.ite (fun _ => pop_leads) fun _ => .refl b).trans
      (reopenFormatting_leads.trans hinsert)
  iterate 2
    exact (Leads.ite (fun _ => closeImplied_leads _) fun _ => .refl b).trans hinsert
  iterate 2
    exact (Leads.ite (fun _ => closeImpliedExcept_leads _) fun _ => .refl b).trans hinsert
  · next hname => exact enterForeign_leads h (by decide) (.inr hname)
  · next hname => exact enterForeign_leads h (by decide) (.inl hname)
  · exact reopenFormatting_leads.trans hinsert

/-! ## End tags of the body -/

theorem closeForm_leads : Leads scope b b.closeForm := by
  rw [closeForm]
  refine .ite (fun _ => ?_) fun _ => ?_
  · exact .ite (fun _ => (closeImplied_leads _).trans (popThrough_leads _)) fun _ => .refl b
  · split
    · exact .refl b
    · have hform : Leads scope b { b with form := none } := .idle rfl rfl rfl id
      exact .ite (fun _ => hform.trans ((closeImplied_leads _).trans (removeOpen_leads _)))
        fun _ => hform

theorem stopInBody_leads (hp : scope.makes ⟨.html, "p"⟩ []) (hbr : scope.makes ⟨.html, "br"⟩ [])
    (name : String) : Leads scope b (b.stopInBody name) := by
  have hclose : ∀ {set : String → Bool} (name : String),
      Leads scope b ((b.closeImplied set).popThrough name) :=
    fun name => (closeImplied_leads _).trans (popThrough_leads name)
  unfold stopInBody
  refine .ite (fun _ => .ite (fun _ => hclose name) fun _ => .refl b) fun _ => ?_
  refine .ite (fun _ => .ite (fun _ => ?_) fun _ => .refl b) fun _ => ?_
  · exact (closeImplied_leads _).trans (popThroughIn_leads _)
  refine .ite (fun _ => closeFormatting_leads name) fun _ => ?_
  refine .ite (fun _ => .ite (fun _ => ?_) fun _ => .refl b) fun _ => ?_
  · exact (hclose name).trans clearFormatting_leads
  split
  · exact closeForm_leads
  · exact (Leads.ite (fun _ => .refl b) fun _ => insertImplied_leads hp rfl).trans
      closeParagraph_leads
  · exact .ite (fun _ => hclose "li") fun _ => .refl b
  iterate 2 exact .ite (fun _ => hclose _) fun _ => .refl b
  · exact insertBreak_leads hbr
  · exact closeOther_leads _

/-! ## In and after the body -/

theorem takeInBody_char (scope : Scope) (b : Builder) (c : Char) :
    ∃ b', b.takeInBody (.char c) = .done b' ∧ Leads scope b b' := by
  rw [takeInBody]
  split
  · exact ⟨b, rfl, .refl b⟩
  · refine ⟨_, rfl, (reopenFormatting_leads.trans ?_).trans (insertChar_leads c)⟩
    exact .ite (fun _ => .refl _) fun _ => noFrameset_leads

theorem takeInBody_leads (h : scope.Allows token) (hcomment : ∀ data, token ≠ .comment data) :
    (b.takeInBody token).LeadsFrom scope b token := by
  cases token with
  | char c =>
    obtain ⟨b', htake, hleads⟩ := takeInBody_char scope b c
    rw [htake]
    exact hleads
  | comment data => exact absurd rfl (hcomment data)
  | stop => exact .ite (fun _ => Leads.refl b) fun _ => stopInTemplate_leads
  | doctype | fault => exact Leads.refl b
  | tag tag =>
    simp only [takeInBody]
    split
    · next hkind =>
      have hstart := h.start _ rfl hkind
      exact .ite (fun _ => takeInHead_leads h hcomment) fun hhead =>
        startInBody_leads hstart (by simpa using hhead)
    · next hkind =>
      have hstop := h.stop _ rfl hkind
      split
      · exact closeTemplate_leads
      · next hname =>
        exact Leads.ite (fun _ => goto_leads (hstop (hname ▸ rfl) _ (by decide))) fun _ => .refl b
      · next hname =>
        exact .ite (fun _ => ⟨rfl, goto_leads (hstop (hname ▸ rfl) _ (by decide))⟩)
          fun _ => Leads.refl b
      · exact stopInBody_leads (h.implied _ rfl) (h.implied _ rfl) _

/-- A step whose states are changed by steering alone. -/
theorem Step.LeadsFrom.mapState {step : Step} {f : Builder → Builder}
    (hf : ∀ b', Leads scope b' (f b')) (h : step.LeadsFrom scope b token) :
    (Step.mapState f step).LeadsFrom scope b token := by
  cases step with
  | done b' => exact Leads.trans h (hf b')
  | again b' token' => exact ⟨h.1, h.2.trans (hf b')⟩

theorem foster_leads (fostering : Bool) : Leads scope b { b with fostering } :=
  .idle rfl rfl rfl id

theorem takeFostered_leads (h : scope.Allows token) (hcomment : ∀ data, token ≠ .comment data) :
    (b.takeFostered token).LeadsFrom scope b token :=
  .mapState (fun _ => foster_leads false)
    (.of_leads (foster_leads true) (takeInBody_leads h hcomment))

theorem takeInTemplate_leads (h : scope.Allows token) (hcomment : ∀ data, token ≠ .comment data) :
    (b.takeInTemplate token).LeadsFrom scope b token := by
  have henter : ∀ mode : Mode, mode.isInside = true →
      (Step.again ({ b with templateModes := mode :: b.templateModes.tail }.goto mode)
        token).LeadsFrom scope b token := by
    intro mode hmode
    refine ⟨rfl, (templateModes_leads ?_).trans (gotoInside_leads hmode)⟩
    intro m hm
    rcases List.mem_cons.1 hm with rfl | hm
    · exact .inr hmode
    · exact .inl (List.mem_of_mem_tail hm)
  cases token with
  | char c => exact .ite (fun _ => Leads.refl b) fun _ => takeInBody_leads h hcomment
  | comment data => exact absurd rfl (hcomment data)
  | stop => exact stopInTemplate_leads
  | doctype | fault => exact Leads.refl b
  | tag tag =>
    simp only [takeInTemplate]
    split
    · refine .ite (fun _ => takeInHead_leads h hcomment) fun _ => ?_
      split <;> exact henter _ rfl
    · exact .ite (fun _ => closeTemplate_leads) fun _ => Leads.refl b

theorem resume_leads : (Step.again (b.goto .inBody) token).LeadsFrom scope b token :=
  ⟨rfl, gotoInside_leads rfl⟩

theorem takeAfterBody_leads (h : scope.Allows token) (hcomment : ∀ data, token ≠ .comment data) :
    (b.takeAfterBody token).LeadsFrom scope b token := by
  cases token with
  | char c => exact .ite (fun _ => takeInBody_leads h hcomment) fun _ => resume_leads
  | comment data => exact absurd rfl (hcomment data)
  | fault => exact resume_leads
  | doctype lenient => exact resume_leads
  | stop => exact Leads.refl b
  | tag tag =>
    obtain ⟨kind, name, attributes, selfClosing⟩ := tag
    refine .ite (fun (hroot : name = "html") => ?_) fun _ => resume_leads
    subst hroot
    cases kind with
    | start => exact takeInBody_leads h hcomment
    | stop => exact goto_leads (h.stop _ rfl rfl rfl _ (by decide))

theorem takeAfterRoot_leads (h : scope.Allows token) (hcomment : ∀ data, token ≠ .comment data) :
    (b.takeAfterRoot token).LeadsFrom scope b token := by
  cases token with
  | char c => exact .ite (fun _ => takeInBody_leads h hcomment) fun _ => resume_leads
  | comment data => exact absurd rfl (hcomment data)
  | fault => exact resume_leads
  | doctype lenient => exact resume_leads
  | stop => exact Leads.refl b
  | tag tag => exact .ite (fun _ => takeInBody_leads h hcomment) fun _ => resume_leads

/-! ## Tables -/

theorem insertInTable_leads (h : scope.makes ⟨.html, tag.name⟩ tag.attributes)
    (hempty : isEmptyElement tag.name = false) : Leads scope b (b.insertInTable tag) :=
  (popTo_leads _).trans (insertOpened_leads h (.html hempty))

theorem takeTableChar_leads (h : scope.Allows token) (hcomment : ∀ data, token ≠ .comment data)
    (hmode : b.mode ≠ .inTableText) : (b.takeTableChar token).LeadsFrom scope b token := by
  refine .ite (fun _ => .again ?_) fun _ => takeFostered_leads h hcomment
  refine .idle rfl rfl rfl fun hfits => ?_
  exact ⟨hfits.remembers, scope.enters_of_isInside _ rfl, hfits.enters_mode,
    hfits.enters_templateModes, hfits.raw_eq.imp_right fun hraw => ⟨hraw.1, hmode⟩⟩

theorem closeTable_leads :
    Leads scope b ((b.popThrough "table").goto (b.popThrough "table").resetMode) :=
  (popThrough_leads "table").trans gotoReset_leads

/-- A form in a table is empty. -/
theorem insertFormClosed_leads {attributes : List Markup.Attribute}
    (h : scope.makes ⟨.html, "form"⟩ attributes) :
    Leads scope b
      { (b.insertClosed ⟨.html, "form"⟩ attributes).2 with
        form := some (b.insertClosed ⟨.html, "form"⟩ attributes).1.id } :=
  (insertClosed_leads h).trans (.idle rfl rfl rfl id)

theorem startInTable_leads (h : scope.Allows (.tag tag)) (hkind : tag.kind = .start) :
    (b.takeInTable (.tag tag)).LeadsFrom scope b (.tag tag) := by
  have hstart := h.start tag rfl hkind
  have hfoster := takeFostered_leads (b := b) h fun data => by simp
  have hhead := takeInHead_leads (b := b) h fun data => by simp
  simp only [takeInTable, hkind]
  split
  · next hname =>
    exact .done ((((popTo_leads _).trans markFormatting_leads).trans
      (insert_leads hstart (hname ▸ rfl))).trans (gotoInside_leads rfl))
  · next hname =>
    exact .done ((insertInTable_leads hstart.makes (hname ▸ rfl)).trans (gotoInside_leads rfl))
  · next hname =>
    obtain ⟨hgroup, -, -⟩ := hstart.around (hname ▸ rfl)
    exact .again ((insertInTable_leads hgroup rfl).trans (gotoInside_leads rfl))
  iterate 3
    next hname =>
      exact .done ((insertInTable_leads hstart.makes (hname ▸ rfl)).trans (gotoInside_leads rfl))
  iterate 3
    next hname =>
      obtain ⟨-, hbody, -⟩ := hstart.around (hname ▸ rfl)
      exact .again ((insertInTable_leads hbody rfl).trans (gotoInside_leads rfl))
  · exact .ite (fun _ => .again closeTable_leads) fun _ => .stay b
  iterate 3 exact hhead
  · exact .ite (fun _ => .done (insertVoid_leads hstart)) fun _ => hfoster
  · next hname =>
    have hform : scope.makes ⟨.html, "form"⟩ tag.attributes := by
      rw [← hname]
      exact hstart.makes
    exact .ite (fun _ => .stay b) fun _ => .done (insertFormClosed_leads hform)
  · exact hfoster

theorem stopInTable_leads (h : scope.Allows (.tag tag)) (hkind : tag.kind = .stop) :
    (b.takeInTable (.tag tag)).LeadsFrom scope b (.tag tag) := by
  have hfoster := takeFostered_leads (b := b) h fun data => by simp
  simp only [takeInTable, hkind]
  split
  · exact .ite (fun _ => .done closeTable_leads) fun _ => .stay b
  · exact .done closeTemplate_leads
  · exact .ite (fun _ => .stay b) fun _ => hfoster

theorem takeInTable_leads (h : scope.Allows token) (hcomment : ∀ data, token ≠ .comment data)
    (hmode : b.mode ≠ .inTableText) : (b.takeInTable token).LeadsFrom scope b token := by
  cases token with
  | char c => exact takeTableChar_leads h hcomment hmode
  | comment data => exact absurd rfl (hcomment data)
  | stop => exact takeInBody_leads h hcomment
  | doctype | fault => exact .stay b
  | tag tag =>
    cases hkind : tag.kind with
    | start => exact startInTable_leads h hkind
    | stop => exact stopInTable_leads h hkind

theorem fosterText_leads (text : Text) : Leads scope b (b.fosterText text) := by
  induction text generalizing b with
  | nil => exact .refl b
  | cons c text ih =>
    obtain ⟨b', htake, hleads⟩ :=
      takeInBody_char scope { b with fostering := true } c
    have hfoster : b.takeFostered (.char c) = .done { b' with fostering := false } := by
      rw [takeFostered, htake]
      rfl
    rw [fosterText, List.foldl_cons, hfoster]
    exact (((foster_leads true).trans hleads).trans (foster_leads false)).trans ih

theorem insertChars_leads (text : Text) : Leads scope b (text.foldl insertChar b) := by
  induction text generalizing b with
  | nil => exact .refl b
  | cons c text ih => exact (insertChar_leads c).trans ih

theorem gotoReturn_leads : Leads scope b (b.goto b.returnMode) :=
  fun hfits => goto_leads hfits.enters_returnMode hfits

/-- The characters held back in a table are put into the document. -/
theorem flush_leads :
    Leads scope b
      (if b.tableText.reverse.all isSpace then
        b.tableText.reverse.foldl insertChar { b with tableText := [] }
      else fosterText { b with tableText := [] } b.tableText.reverse) := by
  have hempty : Leads scope b { b with tableText := [] } := .idle rfl rfl rfl id
  exact .ite (fun _ => hempty.trans (insertChars_leads _))
    fun _ => hempty.trans (fosterText_leads _)

theorem takeInTableText_leads : (b.takeInTableText token).LeadsFrom scope b token := by
  have hflush : Leads scope b _ := flush_leads.trans gotoReturn_leads
  cases token with
  | char c =>
    exact Leads.ite (fun _ => .refl b) fun _ => .idle rfl rfl rfl id
  | _ => exact .again hflush

theorem closeCaption_leads :
    Leads scope b
      ((((b.closeImplied endsImplicitly).popThrough "caption").clearFormatting).goto .inTable) :=
  (((closeImplied_leads _).trans (popThrough_leads _)).trans clearFormatting_leads).trans
    (gotoInside_leads rfl)

theorem takeInCaption_leads (h : scope.Allows token) (hcomment : ∀ data, token ≠ .comment data) :
    (b.takeInCaption token).LeadsFrom scope b token := by
  have hbody := takeInBody_leads (b := b) h hcomment
  cases token with
  | tag tag =>
    have hagain : (if b.inScope Name.boundsTable "caption" then
        Step.again ((((b.closeImplied endsImplicitly).popThrough "caption").clearFormatting).goto
          .inTable) (.tag tag)
        else .done b).LeadsFrom scope b (.tag tag) :=
      .ite (fun _ => .again closeCaption_leads) fun _ => .stay b
    simp only [takeInCaption]
    split
    · exact .ite (fun _ => hagain) fun _ => hbody
    · refine .ite (fun _ => .ite (fun _ => .done closeCaption_leads) fun _ => .stay b) fun _ => ?_
      exact .ite (fun _ => hagain) fun _ => .ite (fun _ => .stay b) fun _ => hbody
  | _ => exact hbody

theorem takeInColumnGroup_leads (h : scope.Allows token)
    (hcomment : ∀ data, token ≠ .comment data) :
    (b.takeInColumnGroup token).LeadsFrom scope b token := by
  have hpop : Leads scope b (b.pop.goto .inTable) := pop_leads.trans (gotoInside_leads rfl)
  have hleave : (if b.currentIs "colgroup" then Step.again (b.pop.goto .inTable) token
      else .done b).LeadsFrom scope b token :=
    .ite (fun _ => .again hpop) fun _ => .stay b
  cases token with
  | char c => exact .ite (fun _ => .done (insertChar_leads c)) fun _ => hleave
  | comment data => exact absurd rfl (hcomment data)
  | stop => exact takeInBody_leads h hcomment
  | doctype | fault => exact .stay b
  | tag tag =>
    simp only [takeInColumnGroup]
    split
    · next hkind =>
      have hstart := h.start _ rfl hkind
      split
      · exact takeInBody_leads h hcomment
      · exact .done (insertVoid_leads hstart)
      · exact takeInHead_leads h hcomment
      · exact hleave
    · split
      · exact .done (.ite (fun _ => hpop) fun _ => .refl b)
      · exact .stay b
      · exact .done closeTemplate_leads
      · exact hleave

theorem takeInTableBody_leads (h : scope.Allows token) (hcomment : ∀ data, token ≠ .comment data)
    (hmode : b.mode ≠ .inTableText) : (b.takeInTableBody token).LeadsFrom scope b token := by
  have htable := takeInTable_leads (b := b) h hcomment hmode
  have hpop : Leads scope b ((b.popTo Name.holdsRows).pop.goto .inTable) :=
    ((popTo_leads _).trans pop_leads).trans (gotoInside_leads rfl)
  have hleave : (if b.sectionInScope then
        Step.again ((b.popTo Name.holdsRows).pop.goto .inTable) token
      else .done b).LeadsFrom scope b token :=
    .ite (fun _ => .again hpop) fun _ => .stay b
  cases token with
  | tag tag =>
    simp only [takeInTableBody]
    split
    · next hkind =>
      have hstart := h.start _ rfl hkind
      refine .ite (fun hrow => .done ?_) fun _ => .ite (fun hcell => ?_) fun _ => ?_
      · exact ((popTo_leads _).trans (insert_leads hstart (hrow ▸ rfl))).trans
          (gotoInside_leads rfl)
      · have hinner : isInnerPart tag.name = true := by
          rw [isInnerPart, hcell, Bool.or_true, Bool.true_or]
        obtain ⟨-, -, hrow⟩ := hstart.around hinner
        exact .again (((popTo_leads _).trans (insertImplied_leads hrow rfl)).trans
          (gotoInside_leads rfl))
      · exact .ite (fun _ => hleave) fun _ => htable
    · refine .ite (fun _ => .done (.ite (fun _ => hpop) fun _ => .refl b)) fun _ => ?_
      refine .ite (fun _ => hleave) fun _ => ?_
      exact .ite (fun _ => .stay b) fun _ => htable
  | _ => exact htable

theorem isEmptyElement_of_isCell {name : String} (h : isCell name = true) :
    isEmptyElement name = false := by
  unfold isCell at h
  split at h
  case h_3 => cases h
  all_goals rfl

theorem takeInRow_leads (h : scope.Allows token) (hcomment : ∀ data, token ≠ .comment data)
    (hmode : b.mode ≠ .inTableText) : (b.takeInRow token).LeadsFrom scope b token := by
  have htable := takeInTable_leads (b := b) h hcomment hmode
  have hclosed : Leads scope b ((b.popTo Name.holdsCells).pop.goto .inTableBody) :=
    ((popTo_leads _).trans pop_leads).trans (gotoInside_leads rfl)
  cases token with
  | tag tag =>
    have hagain : ∀ p : Bool, (if p then
        Step.again ((b.popTo Name.holdsCells).pop.goto .inTableBody) (.tag tag)
        else .done b).LeadsFrom scope b (.tag tag) :=
      fun p => .ite (fun _ => .again hclosed) fun _ => .stay b
    simp only [takeInRow]
    split
    · next hkind =>
      have hstart := h.start _ rfl hkind
      refine .ite (fun hcell => .done ?_) fun _ => ?_
      · have hempty := isEmptyElement_of_isCell hcell
        exact (((popTo_leads _).trans (insert_leads hstart hempty)).trans
          (gotoInside_leads rfl)).trans markFormatting_leads
      · exact .ite (fun _ => hagain _) fun _ => htable
    · refine .ite (fun _ => .done (.ite (fun _ => hclosed) fun _ => .refl b)) fun _ => ?_
      refine .ite (fun _ => hagain _) fun _ => ?_
      refine .ite (fun _ => hagain _) fun _ => ?_
      exact .ite (fun _ => .stay b) fun _ => htable
  | _ => exact htable

theorem closeCell_leads : Leads scope b b.closeCell :=
  (((closeImplied_leads _).trans (popThroughIn_leads _)).trans clearFormatting_leads).trans
    (gotoInside_leads rfl)

theorem takeInCell_leads (h : scope.Allows token) (hcomment : ∀ data, token ≠ .comment data) :
    (b.takeInCell token).LeadsFrom scope b token := by
  have hbody := takeInBody_leads (b := b) h hcomment
  cases token with
  | tag tag =>
    simp only [takeInCell]
    split
    · refine .ite (fun _ => ?_) fun _ => hbody
      exact .ite (fun _ => .again closeCell_leads) fun _ => .stay b
    · refine .ite (fun _ => .done (.ite (fun _ => ?_) fun _ => .refl b)) fun _ => ?_
      · exact (((closeImplied_leads _).trans (popThrough_leads _)).trans
          clearFormatting_leads).trans (gotoInside_leads rfl)
      refine .ite (fun _ => .stay b) fun _ => .ite (fun _ => ?_) fun _ => hbody
      exact .ite (fun _ => .again closeCell_leads) fun _ => .stay b
  | _ => exact hbody

/-! ## Option lists and frames -/

theorem closeSelect_leads : Leads scope b b.closeSelect :=
  (popThrough_leads "select").trans gotoReset_leads

theorem closeOption_leads : Leads scope b b.closeOption :=
  .ite (fun _ => pop_leads) fun _ => .refl b

theorem closeOptionGroup_leads : Leads scope b b.closeOptionGroup :=
  closeOption_leads.trans (.ite (fun _ => pop_leads) fun _ => .refl _)

theorem stopOptionGroup_leads : Leads scope b b.stopOptionGroup := by
  unfold stopOptionGroup
  split
  · refine .ite (fun _ => pop_leads.trans pop_leads) fun _ => ?_
    exact .ite (fun _ => pop_leads) fun _ => .refl b
  · exact .refl b

theorem takeInSelect_leads (h : scope.Allows token) (hcomment : ∀ data, token ≠ .comment data) :
    (b.takeInSelect token).LeadsFrom scope b token := by
  have hclose : Leads scope b (if b.inScope Name.boundsSelect "select" then b.closeSelect else b) :=
    .ite (fun _ => closeSelect_leads) fun _ => .refl b
  cases token with
  | char c => exact Leads.ite (fun _ => .refl b) fun _ => insertChar_leads c
  | comment data => exact absurd rfl (hcomment data)
  | stop => exact takeInBody_leads h hcomment
  | doctype | fault => exact .stay b
  | tag tag =>
    simp only [takeInSelect]
    split
    · next hkind =>
      have hstart := h.start _ rfl hkind
      split
      · exact takeInBody_leads h hcomment
      · next hname => exact .done (closeOption_leads.trans (insert_leads hstart (hname ▸ rfl)))
      · next hname =>
        exact .done (closeOptionGroup_leads.trans (insert_leads hstart (hname ▸ rfl)))
      · exact .done (closeOptionGroup_leads.trans (insertVoid_leads hstart))
      · exact .done hclose
      iterate 3 exact .ite (fun _ => .again closeSelect_leads) fun _ => .stay b
      iterate 2 exact takeInHead_leads h hcomment
      · exact .stay b
    · split
      · exact .done stopOptionGroup_leads
      · exact .done closeOption_leads
      · exact .done hclose
      · exact .done closeTemplate_leads
      · exact .stay b

theorem takeInSelectInTable_leads (h : scope.Allows token)
    (hcomment : ∀ data, token ≠ .comment data) :
    (b.takeInSelectInTable token).LeadsFrom scope b token := by
  have hselect := takeInSelect_leads (b := b) h hcomment
  cases token with
  | tag tag =>
    simp only [takeInSelectInTable]
    refine .ite (fun _ => hselect) fun _ => ?_
    split
    · exact .again closeSelect_leads
    · exact .ite (fun _ => .again closeSelect_leads) fun _ => .stay b
  | _ => exact hselect

theorem takeInFrameset_leads (h : scope.Allows token) (hcomment : ∀ data, token ≠ .comment data) :
    (b.takeInFrameset token).LeadsFrom scope b token := by
  cases token with
  | char c => exact .done (.ite (fun _ => insertChar_leads c) fun _ => .refl b)
  | comment data => exact absurd rfl (hcomment data)
  | stop | doctype | fault => exact .stay b
  | tag tag =>
    simp only [takeInFrameset]
    split
    · next hkind =>
      have hstart := h.start _ rfl hkind
      split
      · exact takeInBody_leads h hcomment
      · next hname => exact .done (insert_leads hstart (hname ▸ rfl))
      · exact .done (insertVoid_leads hstart)
      · exact takeInHead_leads h hcomment
      · exact .stay b
    · next hkind =>
      refine .ite (fun hname => .done ?_) fun _ => .stay b
      rw [Bool.and_eq_true, decide_eq_true_eq] at hname
      have hstop := h.stop tag rfl hkind (hname.1 ▸ rfl) .afterFrameset (by decide)
      exact .ite (fun _ => pop_leads) fun _ => pop_leads.trans (goto_leads hstop)

theorem takeAfterFrameset_leads (h : scope.Allows token)
    (hcomment : ∀ data, token ≠ .comment data) :
    (b.takeAfterFrameset token).LeadsFrom scope b token := by
  cases token with
  | char c => exact .done (.ite (fun _ => insertChar_leads c) fun _ => .refl b)
  | comment data => exact absurd rfl (hcomment data)
  | stop | doctype | fault => exact .stay b
  | tag tag =>
    simp only [takeAfterFrameset]
    split
    · split
      · exact takeInBody_leads h hcomment
      · exact takeInHead_leads h hcomment
      · exact .stay b
    · next hkind =>
      refine .done (.ite (fun hname => ?_) fun _ => .refl b)
      exact goto_leads (h.stop tag rfl hkind (hname ▸ rfl) _ (by decide))

theorem takeAfterFramesetRoot_leads (h : scope.Allows token)
    (hcomment : ∀ data, token ≠ .comment data) :
    (b.takeAfterFramesetRoot token).LeadsFrom scope b token := by
  cases token with
  | char c => exact .ite (fun _ => takeInBody_leads h hcomment) fun _ => .stay b
  | comment data => exact absurd rfl (hcomment data)
  | stop | doctype | fault => exact .stay b
  | tag tag =>
    simp only [takeAfterFramesetRoot]
    split
    · split
      · exact takeInBody_leads h hcomment
      · exact takeInHead_leads h hcomment
      · exact .stay b
    · exact .stay b

/-! ## Any token -/

theorem takeText_leads : (b.takeText token).LeadsFrom scope b token := by
  have hreturn : Leads scope b (b.pop.goto b.returnMode) :=
    pop_leads.trans (gotoReturn_leads (b := b.pop))
  cases token with
  | char c => exact .done (insertChar_leads c)
  | stop => exact .again hreturn
  | _ => exact .done hreturn

theorem stepByMode_leads (h : scope.Allows token) (hcomment : ∀ data, token ≠ .comment data) :
    (b.stepByMode token).LeadsFrom scope b token := by
  unfold stepByMode
  split
  · exact takeInitial_leads hcomment
  · exact takeBeforeHtml_leads h hcomment
  · exact takeBeforeHead_leads h hcomment
  · exact takeInHead_leads h hcomment
  · exact takeAfterHead_leads h hcomment
  · exact takeInBody_leads h hcomment
  · exact takeText_leads
  · next hmode => exact takeInTable_leads h hcomment (by simp [hmode])
  · exact takeInTableText_leads
  · exact takeInCaption_leads h hcomment
  · exact takeInColumnGroup_leads h hcomment
  · next hmode => exact takeInTableBody_leads h hcomment (by simp [hmode])
  · next hmode => exact takeInRow_leads h hcomment (by simp [hmode])
  · exact takeInCell_leads h hcomment
  · exact takeInSelect_leads h hcomment
  · exact takeInSelectInTable_leads h hcomment
  · exact takeInTemplate_leads h hcomment
  · exact takeAfterBody_leads h hcomment
  · exact takeInFrameset_leads h hcomment
  · exact takeAfterFrameset_leads h hcomment
  · exact takeAfterRoot_leads h hcomment
  · exact takeAfterFramesetRoot_leads h hcomment

theorem findForeignEnd_sublist {name : Text} {isFirst : Bool} {opened rest : List OpenElement}
    (h : findForeignEnd name isFirst opened = .closes rest) : rest.Sublist opened := by
  fun_induction findForeignEnd name isFirst opened with
  | case1 => cases h
  | case2 => cases h
  | case3 => cases h
  | case4 _ e more _ _ _ =>
    simp only [ForeignEnd.closes.injEq] at h
    rw [← h]
    exact List.sublist_cons_self e more
  | case5 _ e more _ _ _ ih => exact (ih h).cons e

theorem takeForeign_leads (h : scope.Allows token) (hcomment : ∀ data, token ≠ .comment data)
    (hforeign : b.isForeign token = true) :
    (takeForeign stepByMode b token).LeadsFrom scope b token := by
  have hleave : Leads scope b b.leaveForeign := popTo_leads _
  cases token with
  | char c =>
    simp only [takeForeign]
    split
    · exact .done (insertChar_leads _)
    · exact .done (Leads.trans (.ite (fun _ => .refl b) fun _ => noFrameset_leads)
        (insertChar_leads c))
  | comment data => exact absurd rfl (hcomment data)
  | stop | doctype | fault => exact .stay b
  | tag tag =>
    simp only [takeForeign]
    split
    · next hkind =>
      have hstart := h.start _ rfl hkind
      refine .ite (fun _ => .of_leads hleave (stepByMode_leads h hcomment)) fun _ => ?_
      split
      · next name hname =>
        obtain ⟨e, rest, hopened⟩ : ∃ e rest, b.opened = e :: rest := by
          cases hopened : b.opened with
          | nil => simp [currentName?, hopened] at hname
          | cons e rest => exact ⟨e, rest, rfl⟩
        have he : e.name = name := by simpa [currentName?, hopened] using hname
        have hspace : name.space ≠ .html := by
          intro hspace
          simp [isForeign, hopened, he, hspace] at hforeign
        have hin : ∃ e ∈ b.opened, e.name.space ≠ .html :=
          ⟨e, hopened ▸ List.mem_cons_self, he ▸ hspace⟩
        obtain ⟨hmakes, hopens⟩ := hstart.foreign _ hspace _ (.inr rfl)
        refine .done (insertForeign_leads ⟨hmakes, fun hopen => hopens ?_⟩ (.inr hin))
        exact (respell_selfClosing name.space tag).symm.trans hopen
      · exact .stay b
    · refine .ite (fun _ => .of_leads hleave (stepByMode_leads h hcomment)) fun _ => ?_
      split
      · next rest hend => exact .done (.close (findForeignEnd_sublist hend))
      · exact .stay b
      · exact stepByMode_leads h hcomment

/-- One token by the rules that apply to it. -/
theorem step_leads (h : scope.Allows token) (hcomment : ∀ data, token ≠ .comment data) :
    (b.step token).LeadsFrom scope b token := by
  rw [step]
  exact .ite (takeForeign_leads h hcomment) fun _ => stepByMode_leads h hcomment

theorem takeRounds_leads (h : scope.Allows token) (hcomment : ∀ data, token ≠ .comment data)
    (rounds : Nat) : Leads scope b (takeRounds rounds b token) := by
  induction rounds generalizing b with
  | zero => exact .refl b
  | succ rounds ih =>
    have hstep := step_leads (b := b) h hcomment
    rw [takeRounds]
    cases hb : b.step token with
    | done b' =>
      rw [hb] at hstep
      exact hstep
    | again b' token' =>
      rw [hb] at hstep
      obtain ⟨rfl, hleads⟩ := hstep
      exact hleads.trans ih

/-- A token that is no comment is taken by edits. -/
theorem take_leads (h : scope.Allows token) (hcomment : ∀ data, token ≠ .comment data) :
    Leads scope b (b.take token) := by
  have hidle : Leads scope b { b with dropLineFeed := false } := .idle rfl rfl rfl id
  have hrounds : ∀ rounds,
      Leads scope b (takeRounds rounds { b with dropLineFeed := false } token) :=
    fun rounds => hidle.trans (takeRounds_leads h hcomment rounds)
  have hdoctype : ∀ lenient, Leads scope b { b with dropLineFeed := false, lenient } :=
    fun _ => .idle rfl rfl rfl id
  unfold take
  split
  · exact .ite (fun _ => (hdoctype _).trans (gotoInside_leads rfl)) fun _ => hidle
  · exact hidle
  · exact .ite (fun _ => hidle) fun _ => hrounds _
  · exact hrounds _

end SlimTemplate.Html
