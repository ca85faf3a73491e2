import SlimTemplate.Proofs.Html.StartTag

/-!
# The document of one start tag

Reading opens root, head and body around a start tag that stands alone. The element of the tag is
created in the head, in the body or beside them, with the attributes of the tag; a few start tags
create none.

## Main definitions

* `Html.Tag.made`: the element that a start tag creates.
* `Html.Tag.IsKept`: which start tags create an element.

## Main statements

* `Html.Builder.IsBare.adds_startInBody`: what a start tag does in a body with nothing in it.
* `Html.nodes_root`, `Html.nodes_comment`: a root and a comment that stand alone.
* `Html.Tag.IsKept.finish_nodes`: where the element of a tag that stands alone is.
* `Html.parse_oneToken`: a text that is one token is read as the document of that token.
-/

namespace SlimTemplate.Html

open Builder
open Markup (Attribute)

/-- The name and the attributes of the element that a start tag creates in a body. SVG and MathML
spell some keys in their own way. -/
def Tag.made (tag : Tag) : Name × List Attribute :=
  if tag.name = "svg" then (⟨.svg, tag.name⟩, (respell .svg tag).attributes)
  else if tag.name = "math" then (⟨.mathml, tag.name⟩, (respell .mathml tag).attributes)
  else if tag.name = "image" then (⟨.html, "img"⟩, tag.attributes)
  else (⟨.html, tag.name⟩, tag.attributes)

variable {b b' b'' : Builder} {tag : Tag} {name : Name} {attributes : List Attribute}

theorem made_eq (hsvg : tag.name ≠ "svg") (hmath : tag.name ≠ "math")
    (himage : tag.name ≠ "image") : tag.made = (⟨.html, tag.name⟩, tag.attributes) := by
  rw [Tag.made, if_neg hsvg, if_neg hmath, if_neg himage]

/-- A tag whose name is in a set without the three that are changed is taken as it is. -/
theorem made_eq_of_set (set : String → Bool) (hname : set tag.name = true)
    (hset : set "svg" = false ∧ set "math" = false ∧ set "image" = false) :
    tag.made = (⟨.html, tag.name⟩, tag.attributes) := by
  have hne : ∀ {name}, set name = false → tag.name ≠ name := by
    rintro name hfalse heq
    rw [heq, hfalse] at hname
    cases hname
  exact made_eq (hne hset.1) (hne hset.2.1) (hne hset.2.2)

/-- A tag of a fixed name is taken as it is, unless the name is one of the three. -/
theorem made_eq_of_name {given : String} (hname : tag.name = given)
    (hne : given ≠ "svg" ∧ given ≠ "math" ∧ given ≠ "image") :
    tag.made = (⟨.html, tag.name⟩, tag.attributes) := by
  rw [← hname] at hne
  exact made_eq hne.1 hne.2.1 hne.2.2

/-! ## An element in an empty body -/

/-- A body with nothing in it. -/
structure Builder.IsBare (b : Builder) : Prop where
  opened : ∃ body root : OpenElement, b.opened = [body, root] ∧ body.name = ⟨.html, "body"⟩ ∧
    root.name = ⟨.html, "html"⟩
  formatting : b.formatting = []
  form : b.form = none
  templateModes : b.templateModes = []
  mode : b.mode = .inBody

/-- Whether the end of a text leaves the tree as it is. -/
def Builder.EndsQuietly (b : Builder) : Prop :=
  b.templateModes = [] ∧ (b.mode = .inBody ∨ b.mode = .inTable ∨ b.mode = .inSelect ∨
    b.mode = .text ∧ b.returnMode = .inBody)

/-- One element is added to the tree. -/
structure Builder.Adds (b : Builder) (name : Name) (attributes : List Attribute) (b' : Builder) :
    Prop where
  arena : b'.arena = (b.insertClosed name attributes).2.arena
  endsQuietly : b'.EndsQuietly

theorem insertClosed_eq (b : Builder) (name : Name) (attributes : List Attribute) :
    (b.insertClosed name attributes).2 =
      { b with arena := (b.insertClosed name attributes).2.arena } := by
  simp only [insertClosed, create]
  split <;> cases b.place <;> rfl

theorem insertOpened_eq (b : Builder) (name : Name) (attributes : List Attribute) :
    (b.insertOpened name attributes).2 =
      { b with
        arena := (b.insertClosed name attributes).2.arena
        opened := (b.insertClosed name attributes).1 :: b.opened } := by
  have heq := insertClosed_eq b name attributes
  show (b.insertClosed name attributes).2.push _ = _
  rw [heq]
  rfl

theorem Builder.Adds.of_eq (h : b.Adds name attributes b') (harena : b''.arena = b'.arena)
    (hends : b''.EndsQuietly) : b.Adds name attributes b'' :=
  ⟨harena.trans h.arena, hends⟩

/-- What is added is the element that the tag creates. -/
theorem Builder.Adds.made (h : b.Adds ⟨.html, tag.name⟩ tag.attributes b')
    (hmade : tag.made = (⟨.html, tag.name⟩, tag.attributes)) :
    b.Adds tag.made.1 tag.made.2 b' := by
  rwa [hmade]

theorem Builder.Adds.noFrameset (h : b.Adds name attributes b') :
    b.Adds name attributes b'.noFrameset :=
  h.of_eq rfl h.endsQuietly

theorem Builder.Adds.goto (h : b.Adds name attributes b') {mode : Mode}
    (hmode : mode = .inBody ∨ mode = .inTable ∨ mode = .inSelect) :
    b.Adds name attributes (b'.goto mode) :=
  h.of_eq rfl ⟨h.endsQuietly.1, hmode.imp_right fun hmode => hmode.imp_right .inl⟩

namespace Builder.IsBare

variable (h : b.IsBare)
include h

theorem adds_insertClosed (name : Name) (attributes : List Attribute) :
    b.Adds name attributes (b.insertClosed name attributes).2 := by
  refine ⟨rfl, ?_⟩
  rw [insertClosed_eq]
  exact ⟨h.templateModes, .inl h.mode⟩

theorem adds_insertOpened (name : Name) (attributes : List Attribute) :
    b.Adds name attributes (b.insertOpened name attributes).2 := by
  refine ⟨rfl, ?_⟩
  rw [insertOpened_eq]
  exact ⟨h.templateModes, .inl h.mode⟩

theorem adds_insert (tag : Tag) : b.Adds ⟨.html, tag.name⟩ tag.attributes (b.insert tag) :=
  h.adds_insertOpened _ _

theorem adds_insertVoid (tag : Tag) : b.Adds ⟨.html, tag.name⟩ tag.attributes (b.insertVoid tag) :=
  h.adds_insertClosed _ _

theorem adds_insertRaw (tag : Tag) (kind : RawKind) :
    b.Adds ⟨.html, tag.name⟩ tag.attributes (b.insertRaw tag kind) := by
  refine (h.adds_insert tag).of_eq rfl ⟨(h.adds_insert tag).endsQuietly.1, .inr (.inr (.inr ⟨rfl, h.mode⟩))⟩

theorem adds_insertForeign (space : Space) (tag : Tag) :
    b.Adds ⟨space, tag.name⟩ tag.attributes (b.insertForeign space tag) := by
  rw [insertForeign]
  split
  · exact h.adds_insertClosed _ _
  · exact h.adds_insertOpened _ _

theorem noFrameset : b.noFrameset.IsBare :=
  ⟨h.opened, h.formatting, h.form, h.templateModes, h.mode⟩

theorem dropLineFeed : { b with dropLineFeed := true }.IsBare :=
  ⟨h.opened, h.formatting, h.form, h.templateModes, h.mode⟩

/-- No element but the body and the root is in reach. -/
theorem inScope_eq_false (bound : Name → Bool) {name : String} (hbody : name ≠ "body")
    (hroot : name ≠ "html") : b.inScope bound name = false := by
  obtain ⟨body, root, hopened, hb, hr⟩ := h.opened
  have hne : Name.isHtml ⟨.html, "body"⟩ name = false ∧ Name.isHtml ⟨.html, "html"⟩ name = false := by
    simp [Name.isHtml, hbody.symm, hroot.symm]
  simp only [inScope, hopened, reaches, hb, hr, hne.1, hne.2, Bool.false_eq_true, if_false, ite_self]

theorem place_eq : ∃ body, b.opened.head? = some body ∧
    b.place = .inside (b.arena.holder body.id) := by
  obtain ⟨body, root, hopened, hbody, -⟩ := h.opened
  have hpart : Name.isHtmlIn ⟨.html, "body"⟩ isTablePart = false := by decide
  refine ⟨body, by rw [hopened]; rfl, ?_⟩
  simp only [place, hopened, placeIn, hbody, hpart, Bool.and_false, Bool.false_eq_true, if_false]

/-- What does not concern the tree may be set before. -/
theorem adds_of_before {before : Builder} (hbefore : before.IsBare)
    (harena : before.arena = b.arena) (hopened : before.opened = b.opened)
    (hadds : before.Adds name attributes b') : b.Adds name attributes b' := by
  obtain ⟨body, hbody, hplace⟩ := h.place_eq
  obtain ⟨body', hbody', hplace'⟩ := hbefore.place_eq
  obtain rfl : body' = body := by
    rw [hopened, hbody] at hbody'
    exact (Option.some.inj hbody').symm
  refine ⟨hadds.arena.trans ?_, hadds.endsQuietly⟩
  simp only [insertClosed, create, hplace, hplace', harena]
  split <;> rfl

theorem closeParagraphInScope_eq : b.closeParagraphInScope = b := by
  rw [closeParagraphInScope, h.inScope_eq_false _ (by decide) (by decide)]
  rfl

theorem reopenFormatting_eq : b.reopenFormatting = b := by
  rw [reopenFormatting, h.formatting]
  show { b with formatting := [] } = b
  rw [← h.formatting]

theorem findFormatting?_eq (name : String) : b.findFormatting? name = none := by
  rw [findFormatting?, recentFormatting, h.formatting]
  rfl

theorem closeOuterLink_eq : b.closeOuterLink = b := by
  rw [closeOuterLink, h.findFormatting?_eq]

theorem currentIs_eq {name : String} (hbody : name ≠ "body") : b.currentIs name = false := by
  obtain ⟨body, root, hopened, hb, -⟩ := h.opened
  simp [currentIs, hopened, hb, Name.isHtml, hbody.symm]

theorem currentIn_isHeading_eq : b.currentIn isHeading = false := by
  obtain ⟨body, root, hopened, hb, -⟩ := h.opened
  simp only [currentIn, hopened, hb]
  decide

theorem openItem?_eq (name : String) : openItem? name b.opened = none := by
  obtain ⟨body, root, hopened, hb, -⟩ := h.opened
  have hitem : ∀ item, item ≠ "body" → Name.isHtml ⟨.html, "body"⟩ item = false := by
    intro item hne
    simp [Name.isHtml, hne.symm]
  have hbinds : Name.isHtmlIn ⟨.html, "body"⟩ bindsListItem = true := by decide
  simp only [hopened, openItem?, hb, hitem "li" (by decide), hitem "dd" (by decide),
    hitem "dt" (by decide), Bool.or_self, ite_self, Bool.false_eq_true, if_false, hbinds, if_true]

theorem adds_insertFormatting (tag : Tag) :
    b.Adds ⟨.html, tag.name⟩ tag.attributes (b.insertFormatting tag) := by
  have hrecent : b.recentFormatting = [] := by
    rw [recentFormatting, h.formatting]
    rfl
  simp only [insertFormatting, hrecent, List.filterMap_nil, List.length_nil]
  exact (h.adds_insert tag).of_eq rfl (h.adds_insert tag).endsQuietly

theorem adds_insertForm (tag : Tag) :
    b.Adds ⟨.html, "form"⟩ tag.attributes (b.insertForm tag) := by
  have hinsert := h.adds_insertOpened ⟨.html, "form"⟩ tag.attributes
  simp only [insertForm, h.form, Option.isSome_none, Bool.false_and, Bool.false_eq_true, if_false,
    h.closeParagraphInScope_eq]
  split
  · exact hinsert
  · exact hinsert.of_eq rfl hinsert.endsQuietly

theorem adds_insertItem (tag : Tag) :
    b.Adds ⟨.html, tag.name⟩ tag.attributes (b.insertItem tag) := by
  have hitem : openItem? tag.name b.noFrameset.opened = none := h.openItem?_eq tag.name
  simp only [insertItem, hitem, h.noFrameset.closeParagraphInScope_eq]
  exact h.adds_of_before h.noFrameset rfl rfl (h.noFrameset.adds_insert tag)

theorem adds_insertButton (tag : Tag) :
    b.Adds ⟨.html, tag.name⟩ tag.attributes (b.insertButton tag) := by
  have hbutton : b.inScope Name.boundsDefault "button" = false :=
    h.inScope_eq_false _ (by decide) (by decide)
  simp only [insertButton, hbutton, Bool.false_eq_true, if_false, h.reopenFormatting_eq]
  exact (h.adds_insert tag).noFrameset

/-- Any start tag that may stand in a body adds its element to one with nothing in it. -/
theorem adds_startInBody (hstray : isStrayInBody tag.name = false)
    (hroot : tag.name ≠ "html") (hbody : tag.name ≠ "body") (hframes : tag.name ≠ "frameset") :
    b.Adds tag.made.1 tag.made.2 (b.startInBody tag) := by
  have hinsert := h.adds_insert tag
  have hvoid := h.adds_insertVoid tag
  have hframe := h.adds_of_before h.noFrameset rfl rfl (h.noFrameset.adds_insertRaw tag .verbatim)
  have hruby : b.inScope Name.boundsDefault "ruby" = false :=
    h.inScope_eq_false _ (by decide) (by decide)
  have hnobr : b.inScope Name.boundsDefault "nobr" = false :=
    h.inScope_eq_false _ (by decide) (by decide)
  have hoption : b.currentIs "option" = false := h.currentIs_eq (by decide)
  simp only [startInBody, insertBreak, h.closeParagraphInScope_eq, h.reopenFormatting_eq,
    h.closeOuterLink_eq, h.currentIn_isHeading_eq, hstray, hruby, hnobr, hoption,
    Bool.false_eq_true, if_false, ite_self]
  split
  · next hname => exact hinsert.made (made_eq_of_set isBlock hname (by decide))
  split
  · next hname => exact hinsert.made (made_eq_of_set isHeading hname (by decide))
  split
  · next hname =>
    simp only [Bool.and_eq_true] at hname
    exact (h.adds_insertFormatting tag).made (made_eq_of_set isFormatting hname.2 (by decide))
  split
  · next hname =>
    have hmade := made_eq_of_set isApart hname (by decide)
    exact (hinsert.made hmade).of_eq rfl hinsert.endsQuietly
  split
  · next hname => exact hvoid.noFrameset.made (made_eq_of_set isInlineVoid hname (by decide))
  split
  -- The root, the body and frames are put elsewhere.
  · next hname => exact absurd hname hroot
  · next hname => exact absurd hname hbody
  · next hname => exact absurd hname hframes
  · next hname =>
    have hmade := made_eq_of_name hname (by decide)
    exact (hinsert.made hmade).of_eq rfl hinsert.endsQuietly
  · next hname =>
    have hmade := made_eq_of_name hname (by decide)
    exact (hinsert.made hmade).of_eq rfl hinsert.endsQuietly
  · next hname => exact hinsert.made (made_eq_of_name hname (by decide))
  · next hname => exact (hname ▸ h.adds_insertForm tag).made (made_eq_of_name hname (by decide))
  · next hname => exact (h.adds_insertItem tag).made (made_eq_of_name hname (by decide))
  · next hname => exact (h.adds_insertItem tag).made (made_eq_of_name hname (by decide))
  · next hname => exact (h.adds_insertItem tag).made (made_eq_of_name hname (by decide))
  · next hname =>
    have hmade := made_eq_of_name hname (by decide)
    exact (hinsert.made hmade).of_eq rfl hinsert.endsQuietly
  · next hname => exact (h.adds_insertButton tag).made (made_eq_of_name hname (by decide))
  · next hname => exact (h.adds_insertFormatting tag).made (made_eq_of_name hname (by decide))
  · next hname => exact (h.adds_insertFormatting tag).made (made_eq_of_name hname (by decide))
  · next hname =>
    exact (hinsert.noFrameset.goto (by decide)).made (made_eq_of_name hname (by decide))
  · next hname =>
    refine Adds.made ?_ (made_eq_of_name hname (by decide))
    split
    · exact hvoid
    · exact hvoid.noFrameset
  · next hname => exact hvoid.made (made_eq_of_name hname (by decide))
  · next hname => exact hvoid.made (made_eq_of_name hname (by decide))
  · next hname => exact hvoid.made (made_eq_of_name hname (by decide))
  · next hname => exact hvoid.noFrameset.made (made_eq_of_name hname (by decide))
  · next hname =>
    have himage := h.adds_insertVoid { tag with name := "img" }
    rw [Tag.made, hname]
    exact himage.noFrameset
  · next hname =>
    have hbare := h.noFrameset.dropLineFeed
    have hraw := h.adds_of_before hbare rfl rfl (hbare.adds_insertRaw tag .references)
    exact hraw.made (made_eq_of_name hname (by decide))
  · next hname => exact hframe.made (made_eq_of_name hname (by decide))
  · next hname => exact hframe.made (made_eq_of_name hname (by decide))
  · next hname => exact (h.adds_insertRaw tag .verbatim).made (made_eq_of_name hname (by decide))
  · next hname => exact (h.adds_insertRaw tag .verbatim).made (made_eq_of_name hname (by decide))
  · next hname =>
    rw [h.mode]
    exact (hinsert.noFrameset.goto (by decide)).made (made_eq_of_name hname (by decide))
  · next hname => exact hinsert.made (made_eq_of_name hname (by decide))
  · next hname => exact hinsert.made (made_eq_of_name hname (by decide))
  · next hname => exact hinsert.made (made_eq_of_name hname (by decide))
  · next hname => exact hinsert.made (made_eq_of_name hname (by decide))
  · next hname => exact hinsert.made (made_eq_of_name hname (by decide))
  · next hname => exact hinsert.made (made_eq_of_name hname (by decide))
  · next hname =>
    have hsvg : tag.name ≠ "svg" := by rw [hname]; decide
    rw [Tag.made, if_neg hsvg, if_pos hname]
    exact h.adds_insertForeign .mathml { respell .mathml tag with name := tag.name }
  · next hname =>
    rw [Tag.made, if_pos hname]
    exact h.adds_insertForeign .svg { respell .svg tag with name := tag.name }
  · next himage _ _ _ _ _ _ _ _ _ _ _ _ hmath hsvg =>
    exact hinsert.made (made_eq hsvg hmath himage)

end Builder.IsBare

/-! ## What is opened around a tag -/

/-- The state with a root of the given attributes. -/
def rootOpened (attributes : List Attribute) : Builder :=
  ((Builder.start.goto .beforeHtml).insertRoot attributes).goto .beforeHead

/-- The state with an open head. -/
def headOpened (attributes : List Attribute) : Builder :=
  (rootOpened attributes).insertHead (.plain "head")

/-- The state behind the head. -/
def headLeft : Builder :=
  (headOpened []).pop.goto .afterHead

/-- The state with an open body. -/
def bodyOpened : Builder :=
  (headLeft.insertImplied "body").goto .inBody

theorem bodyOpened_isBare : bodyOpened.IsBare :=
  ⟨⟨_, _, rfl, rfl, rfl⟩, rfl, rfl, rfl, rfl⟩

theorem takeRounds_again {token token' : Token} (h : b.step token = .again b' token')
    (rounds : Nat) : takeRounds (rounds + 1) b token = takeRounds rounds b' token' := by
  rw [takeRounds, h]

theorem takeRounds_done {token : Token} (h : b.step token = .done b') (rounds : Nat) :
    takeRounds (rounds + 1) b token = b' := by
  rw [takeRounds, h]

section Start

variable (hstart : tag.kind = .start)
include hstart

theorem step_beforeHtml (hroot : tag.name ≠ "html") :
    (Builder.start.goto .beforeHtml).step (.tag tag) = .again (rootOpened []) (.tag tag) := by
  show takeBeforeHtml (Builder.start.goto .beforeHtml) (.tag tag) = _
  unfold takeBeforeHtml
  split
  · next heq => cases heq
  · next heq =>
    cases heq
    exact absurd rfl hroot
  · rw [if_neg]
    · rfl
    · simp [Token.isSpace, Token.stopsOther, hstart]

theorem step_rootOpened (hroot : tag.name ≠ "html") (hhead : tag.name ≠ "head") :
    (rootOpened []).step (.tag tag) = .again (headOpened []) (.tag tag) := by
  show takeBeforeHead (rootOpened []) (.tag tag) = _
  simp only [takeBeforeHead, Token.isSpace, Token.stopsOther, Token.starts, hstart, hroot, hhead,
    Bool.false_or, Bool.and_false, decide_false, reduceCtorEq, Bool.false_and, Bool.false_eq_true,
    if_false]
  rfl

/-- Whatever is no root and no head is taken in a head that is opened for it. -/
theorem take_eq_takeRounds (hroot : tag.name ≠ "html") (hhead : tag.name ≠ "head") :
    Builder.start.take (.tag tag) = takeRounds 29 (headOpened []) (.tag tag) := by
  have hfirst : Builder.start.step (.tag tag) =
      .again (Builder.start.goto .beforeHtml) (.tag tag) := rfl
  have htake : Builder.start.take (.tag tag) = takeRounds 32 Builder.start (.tag tag) := rfl
  rw [htake, takeRounds_again hfirst, takeRounds_again (step_beforeHtml hstart hroot),
    takeRounds_again (step_rootOpened hstart hroot hhead)]

/-- The root itself. -/
theorem take_root (hroot : tag.name = "html") :
    Builder.start.take (.tag tag) = rootOpened tag.attributes := by
  obtain ⟨kind, name, attributes, selfClosing⟩ := tag
  obtain rfl : kind = .start := hstart
  obtain rfl : name = "html" := hroot
  rfl

/-- What belongs into the head is added there. -/
theorem take_inHead (hname : isHeadElement tag.name = true ∨ tag.name = "noscript")
    (htemplate : tag.name ≠ "template") :
    Builder.start.take (.tag tag) = (headOpened []).insertVoid tag ∨
      ∃ kind, Builder.start.take (.tag tag) = (headOpened []).insertRaw tag kind := by
  have hne : tag.name ≠ "html" ∧ tag.name ≠ "head" := by
    constructor <;> intro heq <;> rw [heq] at hname <;> exact absurd hname (by decide)
  have htake := take_eq_takeRounds hstart hne.1 hne.2
  have hstep : (headOpened []).step (.tag tag) = (headOpened []).takeInHead (.tag tag) := rfl
  rcases hname with hname | hname
  · rcases takeInHead_cases (headOpened []) hstart hname with
      hvoid | ⟨hopens, -⟩ | ⟨-, kind, hraw⟩
    · left
      rw [htake, takeRounds_done (hstep.trans hvoid)]
    · exact absurd hopens htemplate
    · right
      exact ⟨kind, by rw [htake, takeRounds_done (hstep.trans hraw)]⟩
  · right
    obtain ⟨kind, name, attributes, selfClosing⟩ := tag
    obtain rfl : kind = .start := hstart
    obtain rfl : name = "noscript" := hname
    exact ⟨.verbatim, by rw [htake]; rfl⟩

/-- A template is opened in the head. -/
theorem take_template (htemplate : tag.name = "template") :
    Builder.start.take (.tag tag) = (headOpened []).openTemplate tag := by
  obtain ⟨kind, name, attributes, selfClosing⟩ := tag
  obtain rfl : kind = .start := hstart
  obtain rfl : name = "template" := htemplate
  rw [take_eq_takeRounds rfl (show "template" ≠ "html" by decide) (show "template" ≠ "head" by decide)]
  rfl

theorem step_headOpened (hname : isHeadElement tag.name = false) (hroot : tag.name ≠ "html")
    (hhead : tag.name ≠ "head") (hnoscript : tag.name ≠ "noscript") :
    (headOpened []).step (.tag tag) = .again headLeft (.tag tag) := by
  show takeInHead (headOpened []) (.tag tag) = _
  have hne : ∀ {name}, isHeadElement name = true → tag.name ≠ name := by
    rintro name htrue heq
    rw [heq, htrue] at hname
    cases hname
  have hvoid : isHeadVoid tag.name = false := by
    unfold isHeadElement at hname
    exact (Bool.or_eq_false_iff.1 hname).1
  simp only [takeInHead, hstart, hvoid, Bool.false_eq_true, if_false]
  split
  · next heq => exact absurd heq hroot
  · next heq => exact absurd heq (hne (by decide))
  · next heq => exact absurd heq (hne (by decide))
  · next heq => exact absurd heq (hne (by decide))
  · next heq => exact absurd heq hnoscript
  · next heq => exact absurd heq (hne (by decide))
  · next heq => exact absurd heq (hne (by decide))
  · next heq => exact absurd heq hhead
  · rfl

theorem step_headLeft (hname : isHeadElement tag.name = false) (hroot : tag.name ≠ "html")
    (hhead : tag.name ≠ "head") (hbody : tag.name ≠ "body") (hframes : tag.name ≠ "frameset") :
    headLeft.step (.tag tag) = .again bodyOpened (.tag tag) := by
  show takeAfterHead headLeft (.tag tag) = _
  simp only [takeAfterHead, hstart, hname, Bool.false_eq_true, if_false]
  rfl

/-- Frames take the place of a body. -/
theorem take_frameset (hname : tag.name = "frameset") :
    Builder.start.take (.tag tag) = (headLeft.insert tag).goto .inFrameset := by
  obtain ⟨kind, name, attributes, selfClosing⟩ := tag
  obtain rfl : kind = .start := hstart
  obtain rfl : name = "frameset" := hname
  rw [take_eq_takeRounds rfl (show "frameset" ≠ "html" by decide) (show "frameset" ≠ "head" by decide)]
  rfl

/-- All else is taken in a body that is opened for it. -/
theorem take_inBody (hname : isHeadElement tag.name = false) (hroot : tag.name ≠ "html")
    (hhead : tag.name ≠ "head") (hnoscript : tag.name ≠ "noscript") (hbody : tag.name ≠ "body")
    (hframes : tag.name ≠ "frameset") :
    Builder.start.take (.tag tag) = bodyOpened.startInBody tag := by
  have hstep : bodyOpened.step (.tag tag) = .done (bodyOpened.startInBody tag) := by
    show takeInBody bodyOpened (.tag tag) = _
    simp only [takeInBody, hstart, hname, Bool.false_eq_true, if_false]
  rw [take_eq_takeRounds hstart hroot hhead,
    takeRounds_again (step_headOpened hstart hname hroot hhead hnoscript),
    takeRounds_again (step_headLeft hstart hname hroot hhead hbody hframes),
    takeRounds_done hstep]

end Start

/-! ## The end of the text -/

/-- The state behind the end of a text. -/
def Builder.finish (b : Builder) : Builder :=
  (b.takeRaw []).1.take .stop

theorem takeRaw_nil (b : Builder) : (b.takeRaw []).1 = { b with raw := none } := by
  rw [takeRaw]
  split
  · next hraw => rw [← hraw]
  · next kind hraw =>
    have hcut : cutRaw kind b.rawName [] = ([], []) := by
      cases kind <;> rfl
    have htokens : rawTokens kind [] = [] := by
      cases kind with
      | references => simp only [rawTokens, charsMeant, replaceNul, List.map_nil, Reference.pieces,
          List.flatMap_nil]
      | _ => rfl
    rw [scanRaw, hcut]
    simp only [htokens]
    rfl

theorem step_stop (b : Builder) : b.step .stop = b.stepByMode .stop := by
  have hforeign : b.isForeign .stop = false := by
    unfold isForeign
    split <;> simp_all
  rw [step, hforeign, if_neg Bool.false_ne_true]

theorem takeInBody_stop (h : b.templateModes = []) : b.takeInBody .stop = .done b := by
  simp only [takeInBody, h, List.isEmpty_nil, if_true]

theorem finish_eq (b : Builder) :
    b.finish = takeRounds (4 * b.opened.length + 32)
      { b with raw := none, dropLineFeed := false } .stop := by
  rw [finish, takeRaw_nil]
  rfl

theorem takeRounds_inBody (htemplates : b.templateModes = [])
    (hmode : b.mode = .inBody ∨ b.mode = .inTable ∨ b.mode = .inSelect) (rounds : Nat) :
    takeRounds (rounds + 1) b .stop = b := by
  refine takeRounds_done ?_ rounds
  rw [step_stop]
  rcases hmode with hmode | hmode | hmode <;> rw [stepByMode, hmode] <;>
    exact takeInBody_stop htemplates

theorem takeRounds_text (hmode : b.mode = .text) (rounds : Nat) :
    takeRounds (rounds + 1) b .stop = takeRounds rounds (b.pop.goto b.returnMode) .stop := by
  refine takeRounds_again ?_ rounds
  rw [step_stop]
  simp only [stepByMode, hmode, takeText]

/-- Where the end of a text is taken by the rules of the body, the tree stays. -/
theorem Builder.EndsQuietly.takeRounds_arena (h : b.EndsQuietly) (rounds : Nat) :
    (takeRounds (rounds + 2) b .stop).arena = b.arena := by
  obtain ⟨htemplates, hmode⟩ := h
  rcases hmode with hmode | hmode | hmode | ⟨hmode, hreturn⟩
  · rw [takeRounds_inBody htemplates (.inl hmode)]
  · rw [takeRounds_inBody htemplates (.inr (.inl hmode))]
  · rw [takeRounds_inBody htemplates (.inr (.inr hmode))]
  · rw [takeRounds_text hmode]
    have hpop : (b.pop.goto b.returnMode).templateModes = [] := htemplates
    rw [takeRounds_inBody hpop (.inl hreturn)]
    rfl

theorem Builder.EndsQuietly.finish_arena (h : b.EndsQuietly) : b.finish.arena = b.arena := by
  have hquiet : ({ b with raw := none, dropLineFeed := false } : Builder).EndsQuietly := h
  rw [finish_eq]
  exact hquiet.takeRounds_arena _

/-- Behind an open head the body is opened at the end of the text. -/
theorem takeRounds_inHead (hmode : b.mode = .inHead) (htemplates : b.templateModes = [])
    (rounds : Nat) :
    (takeRounds (rounds + 3) b .stop).arena =
      ((b.pop.goto .afterHead).insertImplied "body").arena := by
  have hhead : b.step .stop = .again (b.pop.goto .afterHead) .stop := by
    rw [step_stop, stepByMode, hmode]
    rfl
  have hleft : (b.pop.goto .afterHead).step .stop =
      .again (((b.pop.goto .afterHead).insertImplied "body").goto .inBody) .stop := by
    rw [step_stop]
    rfl
  have hbody : (((b.pop.goto .afterHead).insertImplied "body").goto .inBody).step .stop =
      .done (((b.pop.goto .afterHead).insertImplied "body").goto .inBody) := by
    rw [step_stop]
    refine takeInBody_stop ?_
    rw [insertImplied, Builder.insert, insertOpened_eq]
    exact htemplates
  rw [takeRounds_again hhead, takeRounds_again hleft, takeRounds_done hbody]
  rfl

/-! ## The finished trees -/

/-- A store with a root and what is below it. -/
def rootArena (attributes : List Attribute) (reversed : List CellId) (cells : List Cell) : Arena :=
  ⟨(⟨.root, none, [1]⟩ :: ⟨.element ⟨.html, "html"⟩ attributes none, some 0, reversed⟩ ::
    cells).toArray⟩

/-- A cell below the root. -/
def sectionCell (name : String) (reversed : List CellId) : Cell :=
  ⟨.element ⟨.html, name⟩ [] none, some 1, reversed⟩

theorem insertClosed_arena (hname : name.isHtml "template" = false) {p : CellId}
    (hplace : b.place = .inside p) :
    (b.insertClosed name attributes).2.arena =
      (b.arena.add (.element name attributes none)).2.append p b.arena.size := by
  simp only [insertClosed, create, hname, hplace]
  rfl

theorem elementNode_eq (hname : name.local ≠ "template") (children : List Markup.Node) :
    Arena.elementNode name attributes children =
      .element name.local.toList attributes children := by
  rw [Arena.elementNode, if_neg hname]

theorem isHtml_eq_false (hname : name.local ≠ "template") : name.isHtml "template" = false := by
  rw [Name.isHtml, Bool.and_eq_false_iff]
  exact .inr (beq_eq_false_iff_ne.2 hname)

/-- A section below the root, with the nodes in it. -/
def sectionNode (name : String) (children : List Markup.Node) : Markup.Node :=
  .element name.toList [] children

/-- The nodes of a document. -/
def Builder.nodes (b : Builder) : List Markup.Node :=
  b.arena.toNodes b.arena.cells.size Arena.document

theorem nodes_inBody (hname : name.local ≠ "template") (h : bodyOpened.Adds name attributes b) :
    b.finish.nodes = [.element "html".toList [] [sectionNode "head" [],
      sectionNode "body" [.element name.local.toList attributes []]]] := by
  have harena : b.finish.arena = rootArena [] [3, 2] [sectionCell "head" [],
      sectionCell "body" [4], ⟨.element name attributes none, some 3, []⟩] := by
    rw [h.endsQuietly.finish_arena, h.arena,
      insertClosed_arena (isHtml_eq_false hname) (p := 3) rfl]
    rfl
  rw [nodes, harena, ← elementNode_eq hname]
  rfl

/-- The open elements where a head is open. -/
def headStack : List OpenElement :=
  [⟨2, ⟨.html, "head"⟩, false⟩, ⟨1, ⟨.html, "html"⟩, false⟩]

theorem headOpened_opened (attributes : List Attribute) :
    (headOpened attributes).opened = headStack :=
  rfl

/-- A store with an empty section added as the last child of a root. -/
def withSection (arena : Arena) (root : CellId) (name : String) : Arena :=
  (arena.add (.element ⟨.html, name⟩ [] none)).2.append root arena.size

theorem place_of_root {root : CellId} (hopened : b.opened = [⟨root, ⟨.html, "html"⟩, false⟩])
    (hholder : b.arena.holder root = root) : b.place = .inside root := by
  have hpart : Name.isHtmlIn ⟨.html, "html"⟩ isTablePart = false := by decide
  simp only [place, hopened, placeIn, hpart, Bool.and_false, Bool.false_eq_true, if_false]
  exact congrArg Place.inside hholder

/-- Behind an open head the body becomes the last child of the root. -/
theorem arena_behindHead {root head : CellId}
    (hopened : b.opened = [⟨head, ⟨.html, "head"⟩, false⟩, ⟨root, ⟨.html, "html"⟩, false⟩])
    (hholder : b.arena.holder root = root) :
    ((b.pop.goto .afterHead).insertImplied "body").arena = withSection b.arena root "body" := by
  have hroot : (b.pop.goto .afterHead).opened = [⟨root, ⟨.html, "html"⟩, false⟩] := by
    show b.opened.tail = _
    rw [hopened]
    rfl
  have hinsert : ((b.pop.goto .afterHead).insertImplied "body").arena =
      ((b.pop.goto .afterHead).insertClosed ⟨.html, "body"⟩ []).2.arena := rfl
  rw [hinsert, insertClosed_arena rfl (place_of_root hroot hholder)]
  rfl

/-- Before the head, both sections are opened at the end of the text. -/
theorem takeRounds_beforeHead {root : CellId} (hmode : b.mode = .beforeHead)
    (htemplates : b.templateModes = []) (hopened : b.opened = [⟨root, ⟨.html, "html"⟩, false⟩])
    (hholder : b.arena.holder root = root)
    (hbehind : (withSection b.arena root "head").holder root = root) (rounds : Nat) :
    (takeRounds (rounds + 4) b .stop).arena =
      withSection (withSection b.arena root "head") root "body" := by
  have hstep : b.step .stop = .again (b.insertHead (.plain "head")) .stop := by
    rw [step_stop, stepByMode, hmode]
    rfl
  have harena : (b.insertHead (.plain "head")).arena = withSection b.arena root "head" := by
    have hinsert : (b.insertHead (.plain "head")).arena =
        (b.insertClosed ⟨.html, "head"⟩ []).2.arena := rfl
    rw [hinsert, insertClosed_arena rfl (place_of_root hopened hholder)]
    rfl
  have hstack : (b.insertHead (.plain "head")).opened =
      [⟨b.arena.size, ⟨.html, "head"⟩, false⟩, ⟨root, ⟨.html, "html"⟩, false⟩] := by
    show (b.insertOpened ⟨.html, "head"⟩ []).2.opened = _
    rw [insertOpened_eq, ← hopened]
    rfl
  have htemplates' : (b.insertHead (.plain "head")).templateModes = [] := by
    show (b.insertOpened ⟨.html, "head"⟩ []).2.templateModes = _
    rw [insertOpened_eq, ← htemplates]
  rw [takeRounds_again hstep, takeRounds_inHead rfl htemplates',
    arena_behindHead hstack (harena ▸ hbehind), harena]

/-- An element in the head, with a body opened behind it. -/
theorem nodes_behindHead (name : Name) (hname : name.local ≠ "template")
    (harena : b.arena = ((headOpened []).insertClosed name attributes).2.arena)
    (hopened : b.opened = headStack) :
    ((b.pop.goto .afterHead).insertImplied "body").nodes = [.element "html".toList []
      [sectionNode "head" [.element name.local.toList attributes []], sectionNode "body" []]] := by
  have hhead : b.arena = rootArena [] [2] [sectionCell "head" [3],
      ⟨.element name attributes none, some 2, []⟩] := by
    rw [harena, insertClosed_arena (isHtml_eq_false hname) (p := 2) rfl]
    rfl
  have hbody : ((b.pop.goto .afterHead).insertImplied "body").arena =
      rootArena [] [4, 2] [sectionCell "head" [3], ⟨.element name attributes none, some 2, []⟩,
        sectionCell "body" []] := by
    rw [arena_behindHead hopened (hhead ▸ rfl), hhead]
    rfl
  rw [nodes, hbody, ← elementNode_eq hname]
  rfl

theorem nodes_congr (h : b'.arena = b.arena) : b'.nodes = b.nodes := by
  rw [nodes, nodes, h]

-- The open head is a variable here: otherwise each comparison of states would compute it.
theorem nodes_takeRounds_inHead {base : Builder} (hbase : base = headOpened []) (name : Name)
    (hname : name.local ≠ "template") (hmode : b.mode = .inHead) (htemplates : b.templateModes = [])
    (harena : b.arena = (base.insertClosed name attributes).2.arena)
    (hopened : b.opened = headStack) (rounds : Nat) :
    (takeRounds (rounds + 3) b .stop).nodes = [.element "html".toList []
      [sectionNode "head" [.element name.local.toList attributes []], sectionNode "body" []]] := by
  rw [nodes_congr (takeRounds_inHead hmode htemplates rounds)]
  exact nodes_behindHead name hname (hbase ▸ harena) hopened

/-- An element that holds nothing is in the head. -/
theorem nodes_insertVoid (hname : tag.name ≠ "template") :
    ((headOpened []).insertVoid tag).finish.nodes = [.element "html".toList []
      [sectionNode "head" [.element tag.name.toList tag.attributes []],
        sectionNode "body" []]] := by
  obtain ⟨hmode, htemplates⟩ :
      (headOpened []).mode = .inHead ∧ (headOpened []).templateModes = [] := ⟨rfl, rfl⟩
  have hopened := headOpened_opened []
  generalize hbase : headOpened [] = base at hmode htemplates hopened ⊢
  have hvoid : base.insertVoid tag = { base with
      arena := (base.insertClosed ⟨.html, tag.name⟩ tag.attributes).2.arena } :=
    insertClosed_eq _ _ _
  rw [finish_eq, hvoid]
  refine nodes_takeRounds_inHead hbase.symm ⟨.html, tag.name⟩ hname ?_ ?_ ?_ ?_ _
  · exact hmode
  · exact htemplates
  · rfl
  · exact hopened

/-- An element of raw text is in the head. -/
theorem nodes_insertRaw (kind : RawKind) (hname : tag.name ≠ "template") :
    ((headOpened []).insertRaw tag kind).finish.nodes = [.element "html".toList []
      [sectionNode "head" [.element tag.name.toList tag.attributes []],
        sectionNode "body" []]] := by
  obtain ⟨hmode, htemplates⟩ :
      (headOpened []).mode = .inHead ∧ (headOpened []).templateModes = [] := ⟨rfl, rfl⟩
  have hopened := headOpened_opened []
  generalize hbase : headOpened [] = base at hmode htemplates hopened ⊢
  have hinsert : base.insert tag = { base with
      arena := (base.insertClosed ⟨.html, tag.name⟩ tag.attributes).2.arena
      opened := (base.insertClosed ⟨.html, tag.name⟩ tag.attributes).1 :: base.opened } :=
    insertOpened_eq _ _ _
  rw [finish_eq, takeRounds_text rfl, insertRaw, hinsert]
  refine nodes_takeRounds_inHead hbase.symm ⟨.html, tag.name⟩ hname ?_ ?_ ?_ ?_ _
  · exact hmode
  · exact htemplates
  · rfl
  · exact hopened

/-- The store with an open template in the head. -/
def templateArena (attributes : List Attribute) : Arena :=
  rootArena [] [2] [sectionCell "head" [4], ⟨.root, none, []⟩,
    ⟨.element ⟨.html, "template"⟩ attributes (some 3), some 2, []⟩]

/-- At the end of the text a template is closed, and the head is left behind it. -/
theorem nodes_takeRounds_inTemplate (harena : b.arena = templateArena attributes)
    (hopened : b.opened = ⟨4, ⟨.html, "template"⟩, false⟩ :: headStack)
    (hmode : b.mode = .inTemplate) (htemplates : b.templateModes = [.inTemplate])
    (rounds : Nat) :
    (takeRounds (rounds + 4) b .stop).nodes = [.element "html".toList []
      [sectionNode "head" [Arena.elementNode ⟨.html, "template"⟩ attributes []],
        sectionNode "body" []]] := by
  have htemplate : b.hasTemplate = true := by
    rw [hasTemplate, hopened]
    rfl
  have hstep : b.step .stop = .again b.leaveTemplate .stop := by
    rw [step_stop, stepByMode, hmode]
    show b.stopInTemplate = _
    rw [stopInTemplate, if_pos htemplate]
  have hleft : b.leaveTemplate.opened = headStack := by
    show dropThrough _ b.opened = _
    rw [hopened]
    rfl
  have hmodes : b.leaveTemplate.templateModes = [] := by
    show b.templateModes.tail = []
    rw [htemplates]
    rfl
  have hhead : b.leaveTemplate.mode = .inHead := by
    show Builder.modeFor _ (dropThrough _ b.opened) = _
    rw [hopened]
    rfl
  have hcells : b.leaveTemplate.arena = templateArena attributes := harena
  have hbody : ((b.leaveTemplate.pop.goto .afterHead).insertImplied "body").arena =
      rootArena [] [5, 2] [sectionCell "head" [4], ⟨.root, none, []⟩,
        ⟨.element ⟨.html, "template"⟩ attributes (some 3), some 2, []⟩, sectionCell "body" []] := by
    rw [arena_behindHead hleft (hcells ▸ rfl), hcells]
    rfl
  rw [takeRounds_again hstep, nodes_congr (takeRounds_inHead hhead hmodes rounds), nodes, hbody]
  rfl

/-- A template stands in the head, as an element or as the block directive that it marks. -/
theorem nodes_openTemplate (attributes : List Attribute) (selfClosing : Bool) :
    ((headOpened []).openTemplate ⟨.start, "template", attributes, selfClosing⟩).finish.nodes =
      [.element "html".toList [] [sectionNode "head"
        [Arena.elementNode ⟨.html, "template"⟩ attributes []], sectionNode "body" []]] := by
  have harena : ((headOpened []).openTemplate
      ⟨.start, "template", attributes, selfClosing⟩).arena = templateArena attributes := rfl
  have hopened : ((headOpened []).openTemplate
      ⟨.start, "template", attributes, selfClosing⟩).opened =
        ⟨4, ⟨.html, "template"⟩, false⟩ :: headStack := rfl
  rw [finish_eq]
  exact nodes_takeRounds_inTemplate harena hopened rfl rfl _

/-- Frames stand beside an empty head. -/
theorem nodes_frameset (attributes : List Attribute) (selfClosing : Bool) :
    ((headLeft.insert ⟨.start, "frameset", attributes, selfClosing⟩).goto
      .inFrameset).finish.nodes = [.element "html".toList []
        [sectionNode "head" [], .element "frameset".toList attributes []]] := by
  have harena : ((headLeft.insert ⟨.start, "frameset", attributes, selfClosing⟩).goto
      .inFrameset).arena = rootArena [] [3, 2] [sectionCell "head" [],
        ⟨.element ⟨.html, "frameset"⟩ attributes none, some 1, []⟩] := rfl
  generalize hb : (headLeft.insert ⟨.start, "frameset", attributes, selfClosing⟩).goto
    .inFrameset = b at harena ⊢
  have hmode : b.mode = .inFrameset := hb ▸ rfl
  have hstep : ({ b with raw := none, dropLineFeed := false } : Builder).step .stop =
      .done { b with raw := none, dropLineFeed := false } := by
    rw [step_stop, stepByMode, hmode]
    rfl
  rw [finish_eq, takeRounds_done hstep, nodes]
  show b.arena.toNodes b.arena.cells.size Arena.document = _
  rw [harena]
  rfl

theorem finish_beforeHead {arena : Arena} {root : CellId} (harena : b.arena = arena)
    (hmode : b.mode = .beforeHead) (htemplates : b.templateModes = [])
    (hopened : b.opened = [⟨root, ⟨.html, "html"⟩, false⟩]) (hholder : arena.holder root = root)
    (hbehind : (withSection arena root "head").holder root = root) :
    b.finish.arena = withSection (withSection arena root "head") root "body" := by
  subst harena
  have hrounds := takeRounds_beforeHead (b := { b with raw := none, dropLineFeed := false }) hmode
    htemplates hopened hholder hbehind (4 * b.opened.length + 28)
  rw [finish_eq]
  exact hrounds

/-- A root that stands alone gets an empty head and an empty body. -/
theorem nodes_root (attributes : List Attribute) :
    (rootOpened attributes).finish.nodes = [.element "html".toList attributes
      [sectionNode "head" [], sectionNode "body" []]] := by
  have harena : (rootOpened attributes).arena = rootArena attributes [] [] := rfl
  have hopened : (rootOpened attributes).opened = [⟨1, ⟨.html, "html"⟩, false⟩] := rfl
  have hhead : withSection (rootArena attributes [] []) 1 "head" =
      rootArena attributes [2] [sectionCell "head" []] := rfl
  have hbody : withSection (rootArena attributes [2] [sectionCell "head" []]) 1 "body" =
      rootArena attributes [3, 2] [sectionCell "head" [], sectionCell "body" []] := rfl
  rw [nodes, finish_beforeHead harena rfl rfl hopened rfl rfl, hhead, hbody]
  rfl

/-- A store with a comment, a root behind it and what is below the root. -/
def commentArena (data : Text) (reversed : List CellId) (cells : List Cell) : Arena :=
  ⟨(⟨.root, none, [2, 1]⟩ :: ⟨.comment data, some 0, []⟩ ::
    ⟨.element ⟨.html, "html"⟩ [] none, some 0, reversed⟩ :: cells).toArray⟩

/-- A comment that stands alone is before the root. -/
theorem nodes_comment (data : Text) :
    (Builder.start.take (.comment data)).finish.nodes = [.comment data,
      .element "html".toList [] [sectionNode "head" [], sectionNode "body" []]] := by
  have htake : Builder.start.take (.comment data) =
      Builder.start.appendComment Arena.document data := rfl
  generalize hb : Builder.start.appendComment Arena.document data = b at htake
  generalize hroot : (b.insertRoot []).goto .beforeHead = root
  have hfirst : ({ b with raw := none, dropLineFeed := false } : Builder).step .stop =
      .again (b.goto .beforeHtml) .stop := by
    subst hb
    rw [step_stop]
    rfl
  have hsecond : (b.goto .beforeHtml).step .stop = .again root .stop := by
    subst hroot hb
    rw [step_stop]
    rfl
  have hbefore : b.arena = ⟨#[⟨.root, none, [1]⟩, ⟨.comment data, some 0, []⟩]⟩ := by
    subst hb
    rfl
  have harena : root.arena = commentArena data [] [] := by
    have hinsert : root.arena =
        (b.arena.add (.element ⟨.html, "html"⟩ [] none)).2.append 0 b.arena.size := by
      subst hroot
      rfl
    rw [hinsert, hbefore]
    rfl
  have hopened : root.opened = [⟨2, ⟨.html, "html"⟩, false⟩] := by
    have hpush : root.opened = ⟨b.arena.size, ⟨.html, "html"⟩, false⟩ :: b.opened := by
      subst hroot
      rfl
    rw [hpush, hbefore]
    subst hb
    rfl
  have hhead : withSection root.arena 2 "head" = commentArena data [3]
      [⟨.element ⟨.html, "head"⟩ [] none, some 2, []⟩] := by
    rw [harena]
    rfl
  have hbody : withSection (withSection root.arena 2 "head") 2 "body" = commentArena data [4, 3]
      [⟨.element ⟨.html, "head"⟩ [] none, some 2, []⟩,
        ⟨.element ⟨.html, "body"⟩ [] none, some 2, []⟩] := by
    rw [hhead]
    rfl
  have hrounds : ∀ rounds, (takeRounds (rounds + 4) root .stop).arena =
      withSection (withSection root.arena 2 "head") 2 "body" :=
    takeRounds_beforeHead (hroot ▸ rfl) (hroot ▸ hb ▸ rfl) hopened (harena ▸ rfl) (hhead ▸ rfl)
  rw [htake, finish_eq, takeRounds_again hfirst, takeRounds_again hsecond, nodes, hrounds, hbody]
  rfl

/-! ## The document -/

/-- The element that a start tag creates where it stands alone. -/
def Tag.node (tag : Tag) : Markup.Node :=
  .element tag.made.1.local.toList tag.made.2 []

theorem made_ne_template (h : tag.name ≠ "template") : tag.made.1.local ≠ "template" := by
  unfold Tag.made
  split
  · exact h
  · split
    · exact h
    · split
      · exact (by decide : "img" ≠ "template")
      · exact h

/-- Which start tags create an element: neither those that have no place in a body, nor the body
itself, nor a template that marks a directive. -/
structure Tag.IsKept (tag : Tag) : Prop where
  start : tag.kind = .start
  not_stray : isStrayInBody tag.name = false
  not_body : tag.name ≠ "body"
  not_marked : tag.name = "template" → tag.attributes.lookup Arena.markerKey = none

/-- The element of a start tag is the root, or stands in a section of the root or beside it. -/
theorem Tag.IsKept.finish_nodes (h : tag.IsKept) :
    (tag.name = "html" ∧ (Builder.start.take (.tag tag)).finish.nodes =
      [.element "html".toList tag.attributes [sectionNode "head" [], sectionNode "body" []]]) ∨
    ∃ sections, (Builder.start.take (.tag tag)).finish.nodes =
      [.element "html".toList [] sections] ∧ tag.node ∈ Markup.dissolveSections sections := by
  have hhead : tag.name ≠ "head" := by
    intro heq
    have hstray := h.not_stray
    rw [heq] at hstray
    exact absurd hstray (by decide)
  by_cases hroot : tag.name = "html"
  · left
    rw [take_root h.start hroot]
    exact ⟨hroot, nodes_root tag.attributes⟩
  right
  by_cases hframes : tag.name = "frameset"
  · obtain ⟨kind, name, attributes, selfClosing⟩ := tag
    obtain rfl : kind = .start := h.start
    obtain rfl : name = "frameset" := hframes
    rw [take_frameset rfl rfl, nodes_frameset]
    exact ⟨_, rfl, List.mem_singleton_self _⟩
  by_cases htemplate : tag.name = "template"
  · have hmarked := h.not_marked htemplate
    obtain ⟨kind, name, attributes, selfClosing⟩ := tag
    obtain rfl : kind = .start := h.start
    obtain rfl : name = "template" := htemplate
    have hnode : Arena.elementNode ⟨.html, "template"⟩ attributes [] =
        .element "template".toList attributes [] := by
      rw [Arena.elementNode, if_pos rfl, hmarked]
    rw [take_template rfl rfl, nodes_openTemplate attributes selfClosing, hnode]
    exact ⟨_, rfl, List.mem_singleton_self _⟩
  by_cases hname : isHeadElement tag.name = true ∨ tag.name = "noscript"
  · have hmade : tag.made = (⟨.html, tag.name⟩, tag.attributes) := by
      refine made_eq ?_ ?_ ?_ <;> intro heq <;> rw [heq] at hname <;> exact absurd hname (by decide)
    refine ⟨[sectionNode "head" [.element tag.name.toList tag.attributes []],
      sectionNode "body" []], ?_, ?_⟩
    · rcases take_inHead h.start hname htemplate with heq | ⟨kind, heq⟩
      · rw [heq, nodes_insertVoid htemplate]
      · rw [heq, nodes_insertRaw kind htemplate]
    · rw [Tag.node, hmade]
      exact List.mem_singleton_self _
  · rw [not_or, Bool.not_eq_true] at hname
    have hadds := bodyOpened_isBare.adds_startInBody h.not_stray hroot h.not_body hframes
    rw [take_inBody h.start hname.1 hroot hhead hname.2 h.not_body hframes,
      nodes_inBody (made_ne_template htemplate) hadds]
    exact ⟨_, rfl, List.mem_singleton_self _⟩

/-- A text that is one token is read as the document of that token. -/
theorem parse_oneToken {source : Text} {token : Token} (hne : source ≠ [])
    (hnormalize : normalize source = source) (hscan : scan false source = ([token], [])) :
    parse source = (Builder.start.take token).finish.nodes := by
  have hraw : Builder.start.takeRaw source = (Builder.start, source) := rfl
  have hlast : (Builder.start.take token).run [] = (Builder.start.take token).finish := by
    have hnil : ((Builder.start.take token).takeRaw []).2 = [] :=
      List.eq_nil_of_length_eq_zero (Nat.le_zero.1 (length_takeRaw_le _ []))
    rw [Builder.run, dif_pos hnil]
    rfl
  have hrun : Builder.start.run source = (Builder.start.take token).finish := by
    rw [Builder.run, dif_neg (hraw ▸ hne)]
    have hforeign : Builder.start.inForeign = false := rfl
    simp only [hraw, hforeign, hscan]
    exact hlast
  rw [parse, build, hnormalize, hrun]
  rfl

end SlimTemplate.Html
