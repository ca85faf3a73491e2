import SlimTemplate.Proofs.Line.Kind
import SlimTemplate.Proofs.Line.Number
import SlimTemplate.Proofs.Selector.Class
import SlimTemplate.Proofs.Writer.Cut
import SlimTemplate.Proofs.Writer.Physical
import SlimTemplate.Proofs.Writer.Scanned

/-!
# Written classes as selectors

The opening of an element begins a physical line of its own, wherever the element lies. A class is
found in the head of that line if heads are read from its characters and all that the opening has
before it is read as names. The characters of other classes end the head, so that these and what
stands behind them are not found.

## Main definitions

* `Markup.Element.lead`: what an opening has before a class.

## Main statements

* `Writer.opening_of_mem_owned`: the line of an element begins with its opening.
* `Writer.exists_line`: a line of a document is read back at its place.
* `Markup.Document.selects_class`: which written classes select their element.
-/

namespace SlimTemplate

/-! ## The line of an element -/

namespace Writer

open Markup

variable {document : Document} {path : Path} {depth : Nat} {x : OwnedEntry}

theorem mem_nodeOwned_of_mem_nodesOwned {index j : Nat} {nodes : List Node} {node : Node}
    (hnode : nodes[j]? = some node) (hx : x ∈ nodesOwned path index depth nodes)
    (hbegins : path ++ [index + j] <+: x.1) :
    x ∈ nodeOwned (path ++ [index + j]) depth node := by
  induction nodes generalizing index j with
  | nil => cases hnode
  | cons first nodes ih =>
    rw [nodesOwned, List.mem_append] at hx
    rcases hx with hx | hx
    · have heq := eq_of_append_singleton_isPrefix hbegins (prefix_of_mem_nodeOwned first hx)
      obtain rfl : j = 0 := by omega
      obtain rfl := Option.some.inj hnode
      exact hx
    · -- The line is one of a later node, so the node that is looked for is later, too.
      obtain ⟨i, hlow, -, hi⟩ := exists_prefix_of_mem_nodesOwned nodes hx
      have heq := eq_of_append_singleton_isPrefix hbegins hi
      cases j with
      | zero => omega
      | succ j =>
        have hplace : index + (j + 1) = index + 1 + j := by omega
        rw [hplace] at hbegins ⊢
        exact ih hnode hx hbegins

/-- The lines of a child are written for it, unless it is a text, which may stand behind an
opening. -/
theorem mem_nodeOwned_child {parent node : Node} {index : Nat}
    (h : parent.children[index]? = some node) (hx : x ∈ nodeOwned path depth parent)
    (hbegins : path ++ [index] <+: x.1) :
    (∃ depth, x ∈ nodeOwned (path ++ [index]) depth node) ∨ ∃ content, node = .text content := by
  have hchildren : ∀ {depth : Nat}, x ∈ nodesOwned path 0 depth parent.children →
      ∃ depth, x ∈ nodeOwned (path ++ [index]) depth node := by
    intro depth hx
    rw [← Nat.zero_add index] at hbegins ⊢
    exact ⟨depth, mem_nodeOwned_of_mem_nodesOwned h hx hbegins⟩
  -- A line of the parent itself does not lie below the child.
  have hown : x.1 ≠ path := by
    intro howner
    rw [howner] at hbegins
    exact not_append_singleton_isPrefix path index hbegins
  cases parent with
  | text content => cases h
  | comment content => cases h
  | block isOutput code children =>
    rw [nodeOwned] at hx
    split at hx
    · exact Or.inl (hchildren hx)
    · rcases List.mem_cons.1 hx with rfl | hx
      · exact absurd rfl hown
      · exact Or.inl (hchildren hx)
  | element name attributes children =>
    simp only [nodeOwned] at hx
    split at hx
    · obtain rfl := List.mem_singleton.1 hx
      exact absurd rfl hown
    · split at hx
      · next content hsingle =>
        rw [Node.children, singleText?_eq_some hsingle] at h
        have honly := List.mem_singleton.1 (List.mem_of_getElem? h)
        exact Or.inr ⟨content, honly⟩
      · rcases List.mem_cons.1 hx with rfl | hx
        · exact absurd rfl hown
        · exact Or.inl (hchildren hx)

/-- The lines of a node in a document are written for it, unless it is a text. -/
theorem mem_nodeOwned_of_contains {around : List Path} {node : Node}
    (h : document.Contains path around node) (hx : x ∈ document.owned) (hbegins : path <+: x.1) :
    (∃ depth, x ∈ nodeOwned path depth node) ∨ ∃ content, node = .text content := by
  induction h with
  | @top index node h =>
    rw [Document.owned, List.mem_append] at hx
    rcases hx with hx | hx
    · rw [Document.owner_of_mem_doctypeOwned hx] at hbegins
      exact absurd hbegins (not_append_singleton_isPrefix [] index)
    · rw [← Nat.zero_add index] at hbegins ⊢
      rw [← List.nil_append [0 + index]] at hbegins ⊢
      exact Or.inl ⟨0, mem_nodeOwned_of_mem_nodesOwned h hx hbegins⟩
  | @child path around parent node index _ h ih =>
    rcases ih ((List.prefix_append _ _).trans hbegins) with ⟨depth, hx⟩ | ⟨content, rfl⟩
    · exact mem_nodeOwned_child h hx hbegins
    · cases h

/-- The first line of an element with text begins with its opening. -/
theorem opening_of_mem_head?_inlineEntries {e : Element} {content : Text} {entry : Entry}
    (h : entry ∈ (inlineEntries depth e content).head?) :
    ∃ behind, entry.text = e.opening ++ behind ∧ ∀ c ∈ behind.head?, c = ' ' := by
  have hbare : e.opening = e.opening ++ [] := (List.append_nil _).symm
  simp only [inlineEntries] at h
  split at h
  · obtain rfl := Option.some.inj h
    exact ⟨[], hbare, by simp⟩
  · split at h
    · obtain rfl := Option.some.inj h
      exact ⟨_, rfl, by simp⟩
    · split at h
      · obtain rfl := Option.some.inj h
        exact ⟨[], hbare, by simp⟩
      · split at h
        · obtain rfl := Option.some.inj h
          exact ⟨[], hbare, by simp⟩
        · obtain rfl := Option.some.inj h
          exact ⟨_, rfl, by simp⟩

theorem opening_of_mem_nodeOwned {name : Text} {attributes : List Attribute}
    {children : List Node} (hx : x ∈ nodeOwned path depth (.element name attributes children))
    (howner : x.1 = path) :
    ∃ behind, x.2.text = Element.opening ⟨name, attributes⟩ ++ behind ∧
      ∀ c ∈ behind.head?, c = ' ' := by
  have hbare : ∀ {entry : Entry}, entry.text = Element.opening ⟨name, attributes⟩ →
      ∃ behind, entry.text = Element.opening ⟨name, attributes⟩ ++ behind ∧
        ∀ c ∈ behind.head?, c = ' ' :=
    fun h => ⟨[], by rw [h, List.append_nil], by simp⟩
  simp only [nodeOwned] at hx
  split at hx
  · obtain rfl := List.mem_singleton.1 hx
    exact hbare rfl
  · split at hx
    · next content _ =>
      rw [inlineOwned] at hx
      split at hx
      · cases hx
      · next head rest heq =>
        rcases List.mem_cons.1 hx with rfl | hx
        · have hhead : head ∈ (inlineEntries depth ⟨name, attributes⟩ content).head? := by
            rw [heq]
            rfl
          exact opening_of_mem_head?_inlineEntries hhead
        · have hbegins := prefix_of_mem_ownedBy hx
          rw [howner] at hbegins
          exact absurd hbegins (not_append_singleton_isPrefix path 0)
    · rcases List.mem_cons.1 hx with rfl | hx
      · exact hbare rfl
      · obtain ⟨i, -, -, hi⟩ := exists_prefix_of_mem_nodesOwned children hx
        rw [howner] at hi
        exact absurd hi (not_append_singleton_isPrefix path i)

/-- The line that belongs to an element begins with its opening. -/
theorem opening_of_mem_owned {around : List Path} {name : Text} {attributes : List Attribute}
    {children : List Node} {entry : Entry}
    (h : document.Contains path around (.element name attributes children))
    (hx : (path, entry) ∈ document.owned) :
    ∃ behind, entry.text = Element.opening ⟨name, attributes⟩ ++ behind ∧
      ∀ c ∈ behind.head?, c = ' ' := by
  rcases mem_nodeOwned_of_contains h hx List.prefix_rfl with ⟨depth, hmem⟩ | ⟨content, hnode⟩
  · exact opening_of_mem_nodeOwned hmem rfl
  · cases hnode

/-! ## Lines at their places -/

/-- The first physical line of a line that is written is read back at its place. -/
theorem exists_line (layout : Layout) {before after : List OwnedEntry} {first : Text}
    {more : List Text} (howned : document.owned = before ++ x :: after)
    (hsplit : Text.splitOn '\n' (x.2.line layout) = first :: more)
    (hne : Text.trim first ≠ []) :
    ∃ (i : Nat) (line : SlimLine),
      (LineTree.ofSource layout (document.toSlim layout)).lines[i]? = some line ∧
      line.number = (physicalLines layout (before.map (·.2))).length + 1 ∧
      line.content = Text.trim first ∧ line.kind = LineKind.of (Text.trim first) := by
  have hentries : document.entries = before.map (·.2) ++ x.2 :: after.map (·.2) := by
    rw [← document.owned_entries, howned, List.map_append, List.map_cons]
  have hlines : Text.lines (document.toSlim layout) =
      (physicalLines layout document.entries).map Text.dropFinalReturn :=
    lines_unlines_entries layout (by simp [hentries])
  have hplace : (Text.lines (document.toSlim layout))[
      (physicalLines layout (before.map (·.2))).length]? = some (Text.dropFinalReturn first) := by
    rw [hlines, hentries, physicalLines_append, physicalLines, physicalLines, List.flatMap_cons,
      hsplit, List.map_append, List.getElem?_append_right (by simp)]
    simp
  -- A carriage return at the end is trimmed off with the other blanks.
  have htrim := Text.trim_dropFinalReturn first
  have hread : SlimLine.read? layout (1 + (physicalLines layout (before.map (·.2))).length)
      (Text.dropFinalReturn first) = some ⟨Text.dropFinalReturn first, Text.trim first,
        spacesBefore (Text.dropFinalReturn first) / layout.width,
        1 + (physicalLines layout (before.map (·.2))).length, LineKind.of (Text.trim first)⟩ := by
    rw [SlimLine.read?, htrim, if_neg (by simpa using hne)]
  obtain ⟨i, hi⟩ := List.mem_iff_getElem?.1
    (SlimLine.mem_ofSource_iff.2 ⟨_, _, hplace, hread⟩)
  exact ⟨i, _, hi, Nat.add_comm _ _, rfl, rfl⟩

end Writer

/-! ## Classes in an opening -/

namespace Markup.Element

variable {e : Element} {front more : List Text} {name : Text}

/-- What an opening has before the classes that follow some others. -/
def lead (e : Element) (front : List Text) : Text :=
  (if e.isNameless then [] else e.name) ++
    ((e.id?.map (Mark.mk '#')).toList ++ front.map (Mark.mk '.')).flatMap Mark.text

theorem opening_eq_lead (h : e.classes = front ++ name :: more) :
    ∃ tail, e.opening = (e.lead front ++ '.' :: name) ++ tail ∧
      ∀ c ∈ tail.head?, c = '.' ∨ c = '[' := by
  refine ⟨(more.map (Mark.mk '.')).flatMap Mark.text ++ bracketed e.otherAttributes, ?_, ?_⟩
  · rw [opening_eq_stem, stem_eq, marks, lead, h, List.map_append, ← List.append_assoc,
      List.map_cons, List.flatMap_append, List.flatMap_cons]
    simp only [List.append_assoc]
    rfl
  · intro c hc
    cases more with
    | nil =>
      rcases bracketed_eq_nil_or_cons e.otherAttributes with hnil | ⟨list, hlist⟩
      · rw [hnil] at hc
        cases hc
      · rw [hlist] at hc
        exact Or.inr (Option.some.inj hc).symm
    | cons next more => exact Or.inl (Option.some.inj hc).symm

/-- Before a class there is the name, if it is written, and then the sign of a mark. -/
theorem lead_append_eq (e : Element) (front : List Text) (rest : Text) :
    ∃ sign text, e.lead front ++ '.' :: rest =
      (if e.isNameless then [] else e.name) ++ sign :: text ∧ (sign = '#' ∨ sign = '.') := by
  rw [lead, List.append_assoc]
  cases e.id? with
  | some id => exact ⟨'#', _, rfl, Or.inl rfl⟩
  | none =>
    cases front with
    | nil => exact ⟨'.', rest, rfl, Or.inr rfl⟩
    | cons c front => exact ⟨'.', _, rfl, Or.inr rfl⟩

/-- An element is written to a line that opens an element. -/
theorem isElement_lead_append (hname : ∃ c rest, e.name = c :: rest ∧ c.isAlpha = true)
    (h : (LineKind.of e.name).isElement = true) (front : List Text) (rest : Text) :
    (LineKind.of (e.lead front ++ '.' :: rest)).isElement = true := by
  obtain ⟨sign, text, heq, hsign⟩ := lead_append_eq e front rest
  rw [heq]
  split
  · exact LineKind.isElement_cons_of_sign hsign text
  · exact LineKind.isElement_append hsign hname h text

end Markup.Element

/-- The first physical line of an element holds its opening up to a class, and no character of a
name stands behind the class. -/
theorem Writer.exists_splitOn_line (layout : Layout) {e : Markup.Element} {entry : Entry}
    {front more : List Text} {name behind : Text} (hclasses : e.classes = front ++ name :: more)
    (hblank : ∀ c ∈ e.lead front ++ '.' :: name, Text.isBlank c = false)
    (htext : entry.text = e.opening ++ behind) (hbehind : ∀ c ∈ behind.head?, c = ' ') :
    ∃ part others, Text.splitOn '\n' (entry.line layout) =
        (layout.indent entry.depth ++ (e.lead front ++ '.' :: name) ++ part) :: others ∧
      Text.trim (layout.indent entry.depth ++ (e.lead front ++ '.' :: name) ++ part) =
        e.lead front ++ '.' :: name ++ Text.trimEnd part ∧
      ∀ c ∈ (Text.trimEnd part).head?, Head.isNameChar c = false := by
  obtain ⟨tail, hopening, htail⟩ := Markup.Element.opening_eq_lead hclasses
  obtain ⟨part, others, hpart⟩ :=
    List.exists_cons_of_ne_nil (Text.splitOn_ne_nil '\n' (tail ++ behind))
  refine ⟨part, others, ?_, ?_, ?_⟩
  · rw [Entry.line, htext, hopening, List.append_assoc, ← List.append_assoc]
    refine Text.splitOn_append ?_ hpart
    rw [List.mem_append, not_or]
    refine ⟨layout.lineFeed_not_mem_indent _, fun hmem => ?_⟩
    exact absurd (hblank _ hmem) (by decide)
  · rw [List.append_assoc, Layout.indent, Text.trim_spaces_append,
      Text.trim_append_of_trim_eq (Text.trim_eq_self_of_forall hblank) (by simp)]
  · -- Another class, the brackets or the text comes next.
    intro c hc
    have hmem := Text.mem_head?_of_splitOn hpart c (Text.mem_head?_of_trimEnd c hc)
    have hsign : c = '.' ∨ c = '[' ∨ c = ' ' := by
      cases tail with
      | nil => exact Or.inr (Or.inr (hbehind c hmem))
      | cons d tail => exact (htail c hmem).imp_right Or.inl
    rcases hsign with rfl | rfl | rfl <;> decide

namespace Markup.Document

open Writer

variable {document : Document}

/-- A dot and a class of an element are a selector. If heads are not read from all characters of the
class, it selects no line of any tree. If they are, it selects the line of the element, provided
that this line opens an element and that all that is written before the class is read as names. -/
theorem selects_class (layout : Layout) {path : Path} {around : List Path}
    {name : Text} {attributes : List Attribute} {children : List Node}
    (hnode : document.Contains path around (.element name attributes children))
    (hname : ∃ c rest, name = c :: rest ∧ c.isAlpha = true)
    {before after : List OwnedEntry} {entry : Entry}
    (howned : document.owned = before ++ (path, entry) :: after) {c : Text}
    (hc : c ∈ Element.classes ⟨name, attributes⟩) (hsigns : '#' ∉ c ∧ '.' ∉ c ∧ '>' ∉ c) :
    ∃ selector, Selector.parse ('.' :: c) = .ok selector ∧
      ((∃ d ∈ c, Head.isNameChar d = false) → ∀ tree i, selector.selects tree i = false) ∧
      ((∀ d ∈ c, Head.isNameChar d = true) → (LineKind.of name).isElement = true →
        ∀ front more, Element.classes ⟨name, attributes⟩ = front ++ c :: more →
          Head.IsNames (Element.lead ⟨name, attributes⟩ front) →
          ∃ (i : Nat) (line : SlimLine),
            (LineTree.ofSource layout (document.toSlim layout)).lines[i]? = some line ∧
            line.number = (physicalLines layout (before.map (·.2))).length + 1 ∧
            selector.selects (LineTree.ofSource layout (document.toSlim layout)) i = true) := by
  have hclass : Compound.IsClass c :=
    ⟨Element.ne_nil_of_mem_classes hc, Element.isBlank_eq_false_of_mem_classes hc, hsigns⟩
  refine ⟨_, Selector.parse_class hclass, Selector.selects_class_eq_false hclass, ?_⟩
  intro hread helement front more hclasses hlead
  obtain ⟨behind, htext, hbehind⟩ := opening_of_mem_owned hnode
    (by rw [howned]; exact List.mem_append_right _ List.mem_cons_self)
  have hblank := hlead.isBlank_eq_false_append hclass.isBlank_eq_false
  obtain ⟨part, others, hsplit, hcontent, hend⟩ :=
    exists_splitOn_line layout hclasses hblank htext hbehind
  obtain ⟨i, line, hi, hnumber, hline, hkind⟩ :=
    exists_line layout howned hsplit (by rw [hcontent]; simp)
  obtain ⟨head, hscan, hmem⟩ := hlead.exists_class hclass.ne_nil hread hend
  refine ⟨i, line, hi, hnumber, Selector.selects_class_iff.2 ⟨line, head, hi, ?_, ?_, hmem⟩⟩
  · rw [hkind, hcontent, List.append_assoc, List.cons_append]
    exact Element.isElement_lead_append hname helement front _
  · rw [hline, hcontent]
    exact hscan

/-- A card behind a piece of text. -/
def cards : Document where
  doctype := none
  nodes :=
    [.text "x".toList,
      .element "p".toList [("id".toList, "a".toList), ("class".toList, "card wide".toList)]
        [.text "Hi".toList]]

/-- The second class of the card selects the second line. -/
theorem selects_class_cards :
    ∃ selector, Selector.parse ".wide".toList = .ok selector ∧
      ∃ (i : Nat) (line : SlimLine),
        (LineTree.ofSource Layout.standard (cards.toSlim Layout.standard)).lines[i]? = some line ∧
        line.number = 2 ∧
        selector.selects (LineTree.ofSource Layout.standard (cards.toSlim Layout.standard)) i =
          true := by
  have hcard : cards.Contains [1] [] (.element "p".toList
      [("id".toList, "a".toList), ("class".toList, "card wide".toList)] [.text "Hi".toList]) :=
    .top rfl
  have howned : cards.owned =
      [([0], ⟨0, "| x".toList⟩)] ++ ([1], ⟨0, "p#a.card.wide Hi".toList⟩) :: [] := by
    decide +kernel
  obtain ⟨selector, hparse, -, hselects⟩ := selects_class Layout.standard hcard
    ⟨'p', [], rfl, by decide⟩ howned (c := "wide".toList) (by decide) (by decide)
  have hlead : Head.IsNames "p#a.card".toList :=
    Or.inr ⟨some "p".toList, [⟨'#', "a".toList⟩, ⟨'.', "card".toList⟩], by decide +kernel⟩
  exact ⟨selector, hparse, hselects (List.all_eq_true.1 (by decide)) (by decide)
    ["card".toList] [] (by decide) hlead⟩

/-- A class with a colon, and one behind it. -/
def utility : Document where
  doctype := none
  nodes := [.element "p".toList [("class".toList, "md:flex wide".toList)] []]

/-- A class with a colon is written but selects nothing, and neither does the class behind it. -/
theorem not_selects_class_utility :
    utility.Contains [0] [] (.element "p".toList [("class".toList, "md:flex wide".toList)] []) ∧
    utility.owned = [([0], ⟨0, "p.md:flex.wide".toList⟩)] ∧
    ∀ name ∈ ["md:flex", "wide"],
      name.toList ∈ Element.classes ⟨"p".toList, [("class".toList, "md:flex wide".toList)]⟩ ∧
      ∃ selector, Selector.parse ('.' :: name.toList) = .ok selector ∧ ∀ i,
        selector.selects (LineTree.ofSource Layout.standard (utility.toSlim Layout.standard)) i =
          false := by
  have hlines : (LineTree.ofSource Layout.standard (utility.toSlim Layout.standard)).lines =
      [⟨"p.md:flex.wide".toList, "p.md:flex.wide".toList, 0, 1, .element⟩] := by
    decide +kernel
  refine ⟨.top rfl, by decide +kernel, ?_⟩
  intro name hname
  rw [List.mem_cons, List.mem_singleton] at hname
  rcases hname with rfl | rfl
  · have hclass : Compound.IsClass "md:flex".toList :=
      ⟨by decide, Text.isBlank_eq_false_of_all (by decide), by decide⟩
    exact ⟨by decide, _, Selector.parse_class hclass,
      Selector.selects_class_eq_false hclass ⟨':', by decide, by decide⟩ _⟩
  · have hclass : Compound.IsClass "wide".toList :=
      ⟨by decide, Text.isBlank_eq_false_of_all (by decide), by decide⟩
    refine ⟨by decide, _, Selector.parse_class hclass, ?_⟩
    intro i
    rw [← Bool.not_eq_true, Selector.selects_class_iff]
    rintro ⟨line, head, hline, -, hscan, hmem⟩
    rw [hlines] at hline
    obtain rfl := List.mem_singleton.1 (List.mem_of_getElem? hline)
    have hhead : Head.scan? "p.md:flex.wide".toList =
        some ⟨some "p".toList, [⟨'.', "md".toList⟩], none, ":flex.wide".toList⟩ := by
      decide +kernel
    obtain rfl := Option.some.inj (hscan.symm.trans hhead)
    exact absurd hmem (by decide)

end Markup.Document

end SlimTemplate
