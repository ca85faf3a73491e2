import SlimTemplate.Proofs.Line.Kind
import SlimTemplate.Proofs.Line.Render
import SlimTemplate.Proofs.Text.Words
import SlimTemplate.Proofs.Writer.Cut
import SlimTemplate.Proofs.Writer.Scanned

/-!
# Words kept by the writer

Text goes behind the opening of its element, or behind bars on lines of its own. Read back line by
line, the texts behind bars and heads have the words of the texts in the document, each once and in
the same order.

## Main definitions

* `LineKind.carriedText`: the text that a line carries.
* `Markup.Node.words`: the words of the texts in a node.
* `Markup.Node.IsTextual`: a node of elements and texts whose text can be read back.
* `Writer.Carries`: lines that carry given words.

## Main statements

* `Writer.words_opening`, `Writer.words_pipe`: what stands behind an opening or a bar is carried.
* `Writer.carries_nodeEntries`: a node is written to lines that carry its words.
* `Markup.Document.flatMap_words_ofSource_toSlim`: a written document carries its words.
-/

namespace SlimTemplate

/-! ## What lines carry -/

/-- The text that a line of a kind carries: what follows a bar and a blank, or what stands behind a
head. -/
def LineKind.carriedText (kind : LineKind) (content : Text) : Text :=
  match kind with
  | textPipe => content.drop 2
  | _ => ((Head.scan? content).bind Head.textBehind?).getD []

/-- The text that a line carries. -/
def SlimLine.carriedText (line : SlimLine) : Text :=
  line.kind.carriedText line.content

namespace Markup

mutual

/-- The words of the texts in a node, in document order. -/
def Node.words : Node → List Text
  | .element _ _ children => nodesWords children
  | .text content => Text.words content
  | .comment _ => []
  | .block _ _ children => nodesWords children

/-- The words of the texts in nodes side by side. -/
def nodesWords : List Node → List Text
  | [] => []
  | node :: nodes => node.words ++ nodesWords nodes

end

mutual

/-- Elements and texts alone, the elements with names that heads are read from, none of them
preformatted, and those that never have content without any. -/
def Node.IsTextual : Node → Prop
  | .element name attributes children =>
    Element.HasScannedNames ⟨name, attributes⟩ ∧ name ≠ Writer.preformatted ∧
      (Writer.isVoid name = true → children = []) ∧ nodesAreTextual children
  | .text _ => True
  | .comment _ => False
  | .block .. => False

/-- All nodes side by side are textual. -/
def nodesAreTextual : List Node → Prop
  | [] => True
  | node :: nodes => node.IsTextual ∧ nodesAreTextual nodes

end

end Markup

namespace Writer

open Markup

variable {e : Element} {depth : Nat} {line behind : Text} {a b : List Entry} {u v : List Text}

/-- The words that a line carries when it is read back. -/
def Entry.words (entry : Entry) : List Text :=
  Text.words ((LineKind.of (Text.trim entry.text)).carriedText (Text.trim entry.text))

/-- Lines that are read back one by one and carry these words. -/
structure Carries (entries : List Entry) (words : List Text) : Prop where
  oneLine : ∀ entry ∈ entries, entry.IsOneLine
  words_eq : entries.flatMap Entry.words = words

namespace Carries

theorem nil : Carries [] [] :=
  ⟨by simp, rfl⟩

theorem singleton {entry : Entry} (h : entry.IsOneLine) : Carries [entry] entry.words :=
  ⟨by simpa using h, by simp⟩

theorem append (ha : Carries a u) (hb : Carries b v) : Carries (a ++ b) (u ++ v) := by
  refine ⟨fun entry hentry => ?_, ?_⟩
  · exact (List.mem_append.1 hentry).elim (ha.oneLine entry) (hb.oneLine entry)
  · rw [List.flatMap_append, ha.words_eq, hb.words_eq]

end Carries

/-! ## Text behind bars -/

/-- What stands behind a bar is carried. -/
theorem words_pipe (depth : Nat) (line : Text) :
    (Entry.mk depth (pipe line)).words = Text.words line := by
  have hcontent : Text.trim (pipe line) = '|' :: Text.trimEnd (' ' :: line) := by
    rw [pipe_eq_cons, Text.trim_cons_of_not_isBlank (by decide)]
  -- Behind a bar without text the blank is trimmed off, and there is nothing to drop.
  have hdrop : Text.words ((Text.trimEnd (' ' :: line)).drop 1) =
      Text.words (Text.trimEnd (' ' :: line)) := by
    cases htext : Text.trimEnd (' ' :: line) with
    | nil => rfl
    | cons c text =>
      obtain ⟨rest, hrest⟩ := Text.trimEnd_isPrefix (' ' :: line)
      rw [htext] at hrest
      obtain ⟨rfl, -⟩ := List.cons.inj hrest
      rw [Text.words_cons (by decide)]
      rfl
  rw [Entry.words, hcontent, LineKind.of_bar]
  show Text.words ((Text.trimEnd (' ' :: line)).drop 1) = Text.words line
  rw [hdrop, Text.words_trimEnd, Text.words_cons (by decide)]

theorem carries_pipe (depth : Nat) (h : '\n' ∉ line) :
    Carries [⟨depth, pipe line⟩] (Text.words line) := by
  rw [← words_pipe depth]
  exact Carries.singleton (pipe_isLineAt depth h).1

theorem carries_pipes (depth : Nat) {lines : List Text} (h : ∀ line ∈ lines, '\n' ∉ line) :
    Carries (lines.map fun line => ⟨depth, pipe line⟩) (lines.flatMap Text.words) := by
  induction lines with
  | nil => exact Carries.nil
  | cons line lines ih =>
    obtain ⟨hline, hlines⟩ := List.forall_mem_cons.1 h
    exact (carries_pipe depth hline).append (ih hlines)

/-- A piece of text is written to lines that carry its words. -/
theorem carries_textEntries (depth : Nat) (content : Text) :
    Carries (textEntries depth content) (Text.words content) := by
  have hlines : ∀ line ∈ Text.visibleLines content, '\n' ∉ line :=
    fun line hline => (Text.mem_visibleLines hline).2.2
  have hpipes := carries_pipes depth hlines
  rw [Text.flatMap_words_visibleLines] at hpipes
  rw [textEntries]
  split
  · next hnil =>
    rw [hnil] at hpipes
    exact hpipes
  · rw [← Text.words_collapse content]
    exact carries_pipe depth (Text.lineFeed_not_mem_collapse content)
  · exact hpipes

/-! ## Text behind openings -/

theorem words_textBehind? (head : Head) (h : ∀ c ∈ head.remainder.head?, Text.isBlank c = true) :
    Text.words (head.textBehind?.getD []) = Text.words head.remainder := by
  rw [Head.textBehind?, ← Text.words_trim head.remainder]
  cases hremainder : head.remainder with
  | nil => rfl
  | cons c rest =>
    dsimp only
    rw [if_pos (h c (by rw [hremainder]; rfl))]
    split
    · next hempty =>
      rw [List.isEmpty_iff.1 hempty]
      rfl
    · rfl

/-- What stands behind an opening is carried. -/
theorem words_opening (h : e.HasScannedNames) (depth : Nat)
    (hbehind : ∀ c ∈ behind.head?, Text.isBlank c = true) :
    (Entry.mk depth (e.opening ++ behind)).words = Text.words behind := by
  have hplain := h.hasPlainNames
  obtain ⟨c, rest, hopening, hc⟩ := Element.opening_eq_cons hplain.name
  have hcontent : Text.trim (e.opening ++ behind) = e.opening ++ Text.trimEnd behind :=
    Text.trim_append_of_trim_eq (Element.trim_opening hplain) (by simp [hopening]) behind
  have hend : ∀ c ∈ (Text.trimEnd behind).head?, Text.isBlank c = true :=
    fun c hc => hbehind c (Text.mem_head?_of_trimEnd c hc)
  -- A tag name may make the line one of another kind, but not one of text behind a bar.
  have hkind : LineKind.of (e.opening ++ Text.trimEnd behind) ≠ .textPipe := by
    obtain ⟨d, text, hcons, hd⟩ := Head.scan?_eq_some (Element.scan?_opening h hend)
    rw [hcons]
    refine LineKind.of_ne_textPipe ?_
    rintro rfl
    exact absurd hd (by decide)
  have hcarried : (LineKind.of (e.opening ++ Text.trimEnd behind)).carriedText
      (e.opening ++ Text.trimEnd behind) =
        ((Head.scan? (e.opening ++ Text.trimEnd behind)).bind Head.textBehind?).getD [] := by
    unfold LineKind.carriedText
    split
    · next heq => exact absurd heq hkind
    · rfl
  rw [Entry.words, hcontent, hcarried, Element.scan?_opening h hend, Option.bind_some,
    words_textBehind? _ hend, Text.words_trimEnd]

theorem carries_opening (h : e.HasScannedNames) (depth : Nat)
    (hbehind : ∀ c ∈ behind.head?, Text.isBlank c = true) (hlf : '\n' ∉ behind) :
    Carries [⟨depth, e.opening ++ behind⟩] (Text.words behind) := by
  have hplain := h.hasPlainNames
  obtain ⟨c, rest, hopening, hc⟩ := Element.opening_eq_cons hplain.name
  have hline : '\n' ∉ e.opening ++ behind := by
    rw [List.mem_append, not_or]
    exact ⟨Element.lineFeed_not_mem_opening_of_hasPlainNames hplain, hlf⟩
  rw [← words_opening h depth hbehind]
  refine Carries.singleton ⟨Text.trim_ne_nil_of_mem (c := c) ?_ hc, hline⟩
  rw [hopening]
  exact List.mem_cons_self

theorem carries_bare (h : e.HasScannedNames) (depth : Nat) : Carries [⟨depth, e.opening⟩] [] := by
  have hcarries : Carries [⟨depth, e.opening ++ []⟩] (Text.words []) :=
    carries_opening h depth (by simp) (by simp)
  rwa [List.append_nil] at hcarries

/-- An element whose only child is text is written to lines that carry the words of the text. -/
theorem carries_inlineEntries (h : e.HasScannedNames) (hname : e.name ≠ preformatted)
    (depth : Nat) (content : Text) :
    Carries (inlineEntries depth e content) (Text.words content) := by
  have hbare := carries_bare h depth
  rw [← Text.words_trim content]
  simp only [inlineEntries]
  split
  · next hempty =>
    rw [List.isEmpty_iff.1 hempty]
    exact hbare
  · split
    · rw [← Text.flatMap_words_visibleLines]
      exact hbare.append (carries_pipes _ fun line hline => (Text.mem_visibleLines hline).2.2)
    · have hlf := Text.lineFeed_not_mem_collapse (Text.trim content)
      rw [← Text.words_collapse (Text.trim content)]
      split
      · exact hbare.append (carries_pipe _ hlf)
      · rw [← Text.words_cons (c := ' ') (by decide)]
        exact carries_opening h depth (by simpa using by decide) (by simpa using hlf)

/-! ## Trees -/

mutual

/-- A textual node is written to lines that carry its words. -/
theorem carries_nodeEntries (depth : Nat) :
    (node : Node) → node.IsTextual → Carries (nodeEntries depth node) node.words
  | .text content, _ => by
    rw [nodeEntries, Node.words]
    exact carries_textEntries depth content
  | .comment _, h => h.elim
  | .block _ _ _, h => h.elim
  | .element name attributes children, h => by
    rw [Node.IsTextual] at h
    obtain ⟨hnames, hname, hvoid, hchildren⟩ := h
    rw [Node.words]
    simp only [nodeEntries]
    split
    · next hbare =>
      -- A void element has no children either.
      have hnil : children = [] := by
        rw [Bool.or_eq_true] at hbare
        exact hbare.elim hvoid List.isEmpty_iff.1
      rw [hnil]
      exact carries_bare hnames depth
    · split
      · next content hsingle =>
        have honly := singleText?_eq_some hsingle
        rw [honly, nodesWords, nodesWords, Node.words, List.append_nil]
        exact carries_inlineEntries hnames hname depth content
      · exact (carries_bare hnames depth).append
          (carries_nodesEntries (depth + 1) children hchildren)

/-- Textual nodes side by side are written to lines that carry their words. -/
theorem carries_nodesEntries (depth : Nat) :
    (nodes : List Node) → nodesAreTextual nodes →
      Carries (nodesEntries depth nodes) (nodesWords nodes)
  | [], _ => Carries.nil
  | node :: nodes, h => by
    rw [nodesEntries, nodesWords]
    exact (carries_nodeEntries depth node h.1).append (carries_nodesEntries depth nodes h.2)

end

end Writer

namespace Markup.Document

/-- Elements and texts alone, without a document type. -/
structure IsTextual (document : Document) : Prop where
  doctype : document.doctype = none
  nodes : nodesAreTextual document.nodes

/-- Read back line by line, a written document has the words of its texts, in document order. -/
theorem flatMap_words_ofSource_toSlim (layout : Layout) {document : Document}
    (h : document.IsTextual) :
    (SlimLine.ofSource layout (document.toSlim layout)).flatMap
        (fun line => Text.words line.carriedText) = nodesWords document.nodes := by
  have hentries : document.entries = Writer.nodesEntries 0 document.nodes := by
    rw [entries, h.doctype]
    rfl
  have hcarries := Writer.carries_nodesEntries 0 document.nodes h.nodes
  rw [← hentries] at hcarries
  have hback := congrArg (List.map Prod.fst) (Writer.ofSource_unlines layout hcarries.oneLine)
  rw [List.map_map, List.map_map] at hback
  let carried (content : Text) : List Text :=
    Text.words ((LineKind.of content).carriedText content)
  calc (SlimLine.ofSource layout (document.toSlim layout)).flatMap
        (fun line => Text.words line.carriedText)
    _ = (SlimLine.ofSource layout (document.toSlim layout)).flatMap
          (fun line => carried line.content) := by
        refine List.flatMap_congr fun line hline => ?_
        rw [SlimLine.carriedText, (SlimLine.isRead_of_mem_ofSource hline).kind_eq]
    _ = ((SlimLine.ofSource layout (document.toSlim layout)).map (·.content)).flatMap carried := by
        rw [List.flatMap_map]
    _ = (document.entries.map fun entry => Text.trim entry.text).flatMap carried :=
        congrArg (List.flatMap carried) hback
    _ = document.entries.flatMap Writer.Entry.words := by
        rw [List.flatMap_map]
        rfl
    _ = nodesWords document.nodes := hcarries.words_eq

/-- Text behind an opening, behind bars, and between elements. -/
def leaflet : Document where
  doctype := none
  nodes :=
    [.element "p".toList [("class".toList, "lead".toList), ("title".toList, "a ]b".toList)]
        [.text "Two  words".toList],
      .element "p".toList [] [.text "/slash".toList],
      .element "div".toList [("id".toList, " top ".toList)]
        [.text "one\n two".toList, .element "br".toList [] [], .text "tail".toList]]

theorem leaflet_isTextual : leaflet.IsTextual := by
  have hlead : Element.HasScannedNames
      ⟨"p".toList, [("class".toList, "lead".toList), ("title".toList, "a ]b".toList)]⟩ := by
    refine ⟨⟨'p', [], rfl, by decide, by simp⟩, ?_, ?_, ?_, by decide +kernel⟩
    · rintro _ ⟨⟩
    · intro name hname
      obtain rfl : name = "lead".toList := List.mem_singleton.1 hname
      exact List.all_eq_true.1 (by decide)
    · simp [Element.otherAttributes]
  have hbare : Element.HasScannedNames ⟨"p".toList, []⟩ :=
    ⟨⟨'p', [], rfl, by decide, by simp⟩, by rintro _ ⟨⟩, by rintro _ ⟨⟩, by rintro _ ⟨⟩,
      by rintro _ ⟨⟩⟩
  have htop : Element.HasScannedNames ⟨"div".toList, [("id".toList, " top ".toList)]⟩ := by
    refine ⟨⟨'d', "iv".toList, rfl, by decide, List.all_eq_true.1 (by decide)⟩, ?_,
      by rintro _ ⟨⟩, by rintro _ ⟨⟩, by rintro _ ⟨⟩⟩
    intro id hid
    obtain rfl : "top".toList = id := Option.some.inj hid
    exact List.all_eq_true.1 (by decide)
  have hbreak : Element.HasScannedNames ⟨"br".toList, []⟩ :=
    ⟨⟨'b', ['r'], rfl, by decide, List.all_eq_true.1 (by decide)⟩, by rintro _ ⟨⟩,
      by rintro _ ⟨⟩, by rintro _ ⟨⟩, by rintro _ ⟨⟩⟩
  refine ⟨rfl, ⟨hlead, by decide, by decide, trivial, trivial⟩,
    ⟨hbare, by decide, by decide, trivial, trivial⟩,
    ⟨htop, by decide, by decide, trivial, ⟨hbreak, by decide, fun _ => rfl, trivial⟩,
      trivial, trivial⟩, trivial⟩

/-- Each text goes another way, and all words are there in the end. -/
theorem flatMap_words_ofSource_toSlim_leaflet :
    (SlimLine.ofSource Layout.standard (leaflet.toSlim Layout.standard)).flatMap
        (fun line => Text.words line.carriedText) =
      ["Two", "words", "/slash", "one", "two", "tail"].map String.toList :=
  flatMap_words_ofSource_toSlim Layout.standard leaflet_isTextual

end Markup.Document

end SlimTemplate
