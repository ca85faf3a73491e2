import SlimTemplate.Html.Construction.Builder

/-!
# Formatting elements

A formatting element that is cut off by the end of a block is opened again in what follows. When
its end tag comes while a block inside it is open, the element is split in two, one part around
the block and one part inside it.

## Main definitions

* `Html.Builder.reopenFormatting`: opens the elements that were cut off.
* `Html.Builder.insertFormatting`: opens a formatting element, at most three alike in a row.
* `Html.Builder.closeOther`: the end tag of an element without rules of its own.
* `Html.Builder.closeFormatting`: the end tag of a formatting element.
-/

namespace SlimTemplate.Html.Builder

/-- Whether an element is open. -/
def isOpen (b : Builder) (id : CellId) : Bool :=
  b.opened.any (·.id == id)

/-- Whether an entry is a formatting element that was cut off. -/
def isCutOff (b : Builder) : FormatEntry → Bool
  | .marker => false
  | .element id _ => !b.isOpen id

/-- Opens the elements of the given tags one inside the other, with their entries in the list. -/
def reopenAll (b : Builder) : List FormatEntry → Builder
  | [] => b
  | .marker :: rest => b.reopenAll rest
  | .element _ tag :: rest =>
    let (e, b) := b.insertOpened ⟨.html, tag.name⟩ tag.attributes
    { b with formatting := .element e.id tag :: b.formatting }.reopenAll rest

/-- Opens the latest formatting elements again as far as they were cut off. -/
def reopenFormatting (b : Builder) : Builder :=
  let cutOff := b.formatting.takeWhile b.isCutOff
  { b with formatting := b.formatting.drop cutOff.length }.reopenAll cutOff.reverse

/-- The entries up to the latest marker. -/
def recentFormatting (b : Builder) : List FormatEntry :=
  b.formatting.takeWhile fun
    | .marker => false
    | .element _ _ => true

/-- Drops the entries through the latest marker. -/
def clearFormatting (b : Builder) : Builder :=
  { b with formatting := (b.formatting.drop b.recentFormatting.length).drop 1 }

/-- Starts a part of the document whose inside is formatted on its own. -/
def markFormatting (b : Builder) : Builder :=
  { b with formatting := .marker :: b.formatting }

/-- Whether two tags start the same element with the same attributes in any order. -/
def sameTag (s t : Tag) : Bool :=
  s.name == t.name && s.attributes.length == t.attributes.length &&
    s.attributes.all fun kv => t.attributes.contains kv

/-- Whether an entry is that of an element. -/
def FormatEntry.isOf (id : CellId) : FormatEntry → Bool
  | .marker => false
  | .element id' _ => id' == id

/-- Drops the entry of an element. -/
def removeFormatting (b : Builder) (id : CellId) : Builder :=
  { b with formatting := b.formatting.filter fun entry => !FormatEntry.isOf id entry }

/-- Opens a formatting element. Of three that are alike the earliest is forgotten first. -/
def insertFormatting (b : Builder) (tag : Tag) : Builder :=
  let alike := b.recentFormatting.filterMap fun
    | .element id t => if sameTag tag t then some id else none
    | .marker => none
  let b :=
    if alike.length ≥ 3 then
      match alike.getLast? with
      | some earliest => b.removeFormatting earliest
      | none => b
    else b
  let (e, b) := b.insertOpened ⟨.html, tag.name⟩ tag.attributes
  { b with formatting := .element e.id tag :: b.formatting }

/-- Whether an end tag of that name closes an open element before it meets a special one. -/
def meets (name : String) : List OpenElement → Bool
  | [] => false
  | e :: rest =>
    if e.name.isHtml name then true else if e.name.isHtmlIn isSpecial then false else
      meets name rest

/-- Closes the innermost element of that name, unless a special element is open inside it. -/
def closeOther (b : Builder) (name : String) : Builder :=
  if meets name b.opened then (b.closeImpliedExcept name).popThrough name else b

/-- The latest formatting element of that name, back to the latest marker. -/
def findFormatting? (b : Builder) (name : String) : Option (CellId × Tag) :=
  b.recentFormatting.findSome? fun
    | .element id tag => if tag.name == name then some (id, tag) else none
    | .marker => none

/-- The state while a formatting element is being split. -/
structure Split where
  builder : Builder
  /-- The outermost cell that has been moved. -/
  last : CellId
  /-- The copies of the elements between, the innermost first. -/
  copies : List OpenElement
  /-- The copy after which the entry of the inner part goes. -/
  bookmark : Option CellId

/-- Splits one element between the block and the element that is closed, the `count`-th from the
block. Elements without an entry, and those beyond the third, are dropped. -/
def Split.through (s : Split) (count : Nat) (e : OpenElement) : Split :=
  let b := s.builder
  -- Beyond the third an element loses its entry too, so that splitting takes bounded time.
  if count > 3 then { s with builder := b.removeFormatting e.id }
  else
    match b.formatting.findSome? fun
      | .element id tag => if id == e.id then some tag else none
      | .marker => none with
    | none => s
    | some tag =>
      let (copy, b) := b.create ⟨.html, tag.name⟩ tag.attributes
      let formatting := b.formatting.map fun entry =>
        if FormatEntry.isOf e.id entry then .element copy.id tag else entry
      let arena := b.arena.append copy.id s.last
      { builder := { b with formatting, arena }
        last := copy.id
        copies := s.copies ++ [copy]
        bookmark := s.bookmark.or (some copy.id) }

/-- Splits the elements between the block and the element that is closed, from the block
outwards. -/
def Split.throughAll (s : Split) (count : Nat) : List OpenElement → Split
  | [] => s
  | e :: rest => (s.through count e).throughAll (count + 1) rest

/-- A list with `new` put before the first entry of an element. -/
def insertEntry (id : CellId) (new : FormatEntry) : List FormatEntry → List FormatEntry
  | [] => [new]
  | entry :: rest =>
    if FormatEntry.isOf id entry then new :: entry :: rest else entry :: insertEntry id new rest

/-- The state after the part around the block, whose outermost cell goes where the formatting
element stands, has been put there. `outer` are the elements around the formatting element. -/
def Split.put (s : Split) (outer : List OpenElement) : Builder :=
  let b := { s.builder with arena := s.builder.arena.detach s.last }
  match outer with
  | ancestor :: _ => b.putAt s.last (b.placeIn ancestor)
  | [] => b.putAt s.last (.inside Arena.document)

/-- The entries after an element has been split, with `entry` for the part inside the block. -/
def Split.entries (s : Split) (formatting : List FormatEntry) (id : CellId)
    (entry : FormatEntry) : List FormatEntry :=
  match s.bookmark with
  | none => formatting.map fun old => if FormatEntry.isOf id old then entry else old
  | some mark => (insertEntry mark entry formatting).filter fun old => !FormatEntry.isOf id old

/-- Splits a formatting element around the outermost special element that is open inside it.
`inner` are the elements open inside the block, `between` those between the block and the
formatting element, and `outer` those around the formatting element. -/
def splitAround (b : Builder) (id : CellId) (tag : Tag) (inner : List OpenElement)
    (block : OpenElement) (between outer : List OpenElement) : Builder :=
  let s := Split.throughAll ⟨b, block.id, [], none⟩ 1 between
  -- The part inside the block takes over all that the block holds.
  let (copy, b) := (s.put outer).create ⟨.html, tag.name⟩ tag.attributes
  { b with
    arena := (b.arena.moveChildren block.id copy.id).append block.id copy.id
    formatting := s.entries b.formatting id (.element copy.id tag)
    opened := inner ++ copy :: block :: (s.copies ++ outer) }

/-- The elements before and after the last one that satisfies `p`. -/
def splitAtLast? (p : OpenElement → Bool) :
    List OpenElement → Option (List OpenElement × OpenElement × List OpenElement)
  | [] => none
  | e :: rest =>
    match splitAtLast? p rest with
    | some (before, last, after) => some (e :: before, last, after)
    | none => if p e then some ([], e, rest) else none

/-- Closes the latest formatting element of a name. A block that is open inside it makes the
element split, and closing is tried again up to `rounds` times in all. -/
def closeFormattingRounds (name : String) : (rounds : Nat) → Builder → Builder
  | 0, b => b
  | rounds + 1, b =>
    match b.findFormatting? name with
    | none => b.closeOther name
    | some (id, tag) =>
      if !b.isOpen id then b.removeFormatting id
      else if !reaches Name.boundsDefault (·.id == id) b.opened then b
      else
        let inside := b.opened.takeWhile fun e => e.id ≠ id
        let outer := b.opened.drop (inside.length + 1)
        match splitAtLast? (·.name.isHtmlIn isSpecial) inside with
        | none => { b with opened := outer }.removeFormatting id
        | some (inner, block, between) =>
          closeFormattingRounds name rounds (b.splitAround id tag inner block between outer)

/-- The end tag of a formatting element. -/
def closeFormatting (b : Builder) (name : String) : Builder :=
  match b.opened with
  | e :: rest =>
    if e.name.isHtml name && !b.formatting.any (FormatEntry.isOf e.id) then
      { b with opened := rest }
    else closeFormattingRounds name 8 b
  | [] => b

/-- A link inside a link closes the outer one. -/
def closeOuterLink (b : Builder) : Builder :=
  match b.findFormatting? "a" with
  | none => b
  | some (id, _) => ((b.closeFormatting "a").removeFormatting id).removeOpen id

end SlimTemplate.Html.Builder
