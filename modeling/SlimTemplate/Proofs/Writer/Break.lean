import SlimTemplate.Proofs.Writer.Nodes

/-!
# Where a written line breaks

An entry is written as one physical line unless its text has a line feed. Texts, comments that stay
comments, and blocks of code are cut into lines before they are written. What is not cut is the
identifier of an element, the code of a block, and the body of a comment that is written on one
line: an entry breaks exactly where one of these has a line feed.

## Main definitions

* `Markup.Node.breaks`: whether a node writes an entry that is more than one physical line.
* `Markup.Node.IsProper`: the nodes that reading gives: elements with names, and trimmed code.

## Main statements

* `Writer.any_breaks_nodeEntries`: the nodes that break are those with an entry that breaks.
* `Writer.nodeEntries_isClosed`: no entry is blank or ends in a line feed.
-/

namespace SlimTemplate

namespace Markup

/-- An element whose name starts with a letter, and whose name and keys have no line feed. -/
structure Element.IsNamed (e : Element) : Prop where
  name_eq : ∃ c rest, e.name = c :: rest ∧ c.isAlpha = true
  not_mem_name : '\n' ∉ e.name
  not_mem_key : ∀ pair ∈ e.attributes, '\n' ∉ pair.1

mutual

/-- Whether all elements among a node and the nodes in it are named, and all code is trimmed. -/
def Node.IsProper : Node → Prop
  | .text _ => True
  | .comment _ => True
  | .block _ code children => Text.trim code = code ∧ nodesProper children
  | .element name attributes children =>
    Element.IsNamed ⟨name, attributes⟩ ∧ nodesProper children

/-- Whether all nodes side by side are proper. -/
def nodesProper : List Node → Prop
  | [] => True
  | node :: nodes => node.IsProper ∧ nodesProper nodes

end

theorem nodesProper_iff {nodes : List Node} :
    nodesProper nodes ↔ ∀ node ∈ nodes, node.IsProper := by
  induction nodes with
  | nil => simp [nodesProper]
  | cons node nodes ih => simp [nodesProper, ih]

/-- Whether the identifier of an element has a line feed. -/
def Element.breaks (e : Element) : Bool :=
  (e.id?.getD []).contains '\n'

/-- Whether a comment is written on one line and has a line feed. -/
def commentBreaks (content : Text) : Bool :=
  let decoded := Directive.decode content
  let body := Text.trim decoded.body
  match decoded.kind with
  | some .output | some .outputBlock => (Writer.outputText body).contains '\n'
  | some .code | some .codeBlock => body.contains '\n'
  | _ => false

mutual

/-- Whether a node writes an entry that is more than one physical line. -/
def Node.breaks : Node → Bool
  | .text _ => false
  | .comment content => commentBreaks content
  | .block _ code children => code.contains '\n' || nodesBreak children
  | .element name attributes children =>
    Element.breaks ⟨name, attributes⟩ || !Writer.isVoid name && nodesBreak children

/-- Whether one of the nodes side by side breaks. -/
def nodesBreak : List Node → Bool
  | [] => false
  | node :: nodes => node.breaks || nodesBreak nodes

end

end Markup

namespace Writer

open Markup

/-- Whether an entry is more than one physical line. -/
def Entry.breaks (entry : Entry) : Bool :=
  entry.text.contains '\n'

/-- An entry that is not blank and does not end in a line feed. -/
def Entry.IsClosed (entry : Entry) : Prop :=
  Text.trim entry.text ≠ [] ∧ entry.text.getLast? ≠ some '\n'

theorem breaks_eq_false {entry : Entry} (h : '\n' ∉ entry.text) : entry.breaks = false := by
  rw [Entry.breaks, List.contains_eq_mem]
  exact decide_eq_false h

theorem Entry.IsOneLine.isClosed {entry : Entry} (h : entry.IsOneLine) : entry.IsClosed :=
  ⟨h.1, fun hlast => h.2 (List.mem_of_getLast? hlast)⟩

theorem Entry.IsOneLine.breaks {entry : Entry} (h : entry.IsOneLine) : entry.breaks = false :=
  breaks_eq_false h.2

/-- What is to be known of some entries: that each is closed, and whether one of them breaks. -/
structure Break (entries : List Entry) (breaks : Bool) : Prop where
  isClosed : ∀ entry ∈ entries, entry.IsClosed
  any_eq : entries.any Entry.breaks = breaks

theorem Break.nil : Break [] false :=
  ⟨by simp, rfl⟩

theorem Break.append {a b : List Entry} {x y : Bool} (ha : Break a x) (hb : Break b y) :
    Break (a ++ b) (x || y) := by
  refine ⟨?_, ?_⟩
  · intro entry hmem
    exact (List.mem_append.1 hmem).elim (ha.isClosed entry) (hb.isClosed entry)
  · rw [List.any_append, ha.any_eq, hb.any_eq]

theorem Break.cons {entry : Entry} {entries : List Entry} {x y : Bool} (h : entry.IsClosed)
    (hx : entry.breaks = x) (hentries : Break entries y) :
    Break (entry :: entries) (x || y) := by
  refine ⟨List.forall_mem_cons.2 ⟨h, hentries.isClosed⟩, ?_⟩
  rw [List.any_cons, hx, hentries.any_eq]

theorem Break.singleton {entry : Entry} {x : Bool} (h : entry.IsClosed)
    (hx : entry.breaks = x) : Break [entry] x := by
  have hcons := Break.cons h hx .nil
  rwa [Bool.or_false] at hcons

/-- Entries that are one line each. -/
theorem Break.of_isOneLine {entries : List Entry} (h : ∀ entry ∈ entries, entry.IsOneLine) :
    Break entries false := by
  refine ⟨fun entry hmem => (h entry hmem).isClosed, ?_⟩
  rw [List.any_eq_false]
  intro entry hmem
  rw [(h entry hmem).breaks]
  exact Bool.false_ne_true

/-- Entries of which none breaks are one line each. -/
theorem Break.isOneLine {entries : List Entry} (h : Break entries false) :
    ∀ entry ∈ entries, entry.IsOneLine := by
  intro entry hmem
  refine ⟨(h.isClosed entry hmem).1, fun hlf => ?_⟩
  have hbreaks : entry.breaks = true := by
    rw [Entry.breaks, List.contains_eq_mem]
    exact decide_eq_true hlf
  exact List.any_eq_false.1 h.any_eq entry hmem hbreaks

/-! ## Openings -/

/-- The line of an element has a line feed exactly if its identifier has one. -/
theorem lineFeed_mem_opening_iff {e : Element} (h : e.IsNamed) :
    '\n' ∈ e.opening ↔ '\n' ∈ e.id?.getD [] := by
  have hname : '\n' ∉ (if e.isNameless then [] else e.name) := by
    split
    · exact List.not_mem_nil
    · exact h.not_mem_name
  have hclasses : '\n' ∉ e.classes.flatMap fun c => '.' :: c := by
    intro hmem
    obtain ⟨name, hmemName, hmem⟩ := List.mem_flatMap.1 hmem
    rcases List.mem_cons.1 hmem with hmem | hmem
    · exact absurd hmem (by decide)
    · exact absurd (Element.isBlank_eq_false_of_mem_classes hmemName _ hmem) (by decide)
  have hothers : '\n' ∉ Element.bracketed e.otherAttributes := by
    apply Element.lineFeed_not_mem_bracketed
    intro key value hmem
    exact h.not_mem_key (key, value) (List.mem_filter.1 hmem).1
  simp only [Element.opening, List.mem_append, hname, hclasses, hothers, false_or, or_false]
  cases e.id? with
  | none => rfl
  | some id => rw [List.mem_cons, or_iff_right (by decide), Option.getD_some]

/-- A list that is put together ends in the last character of a part. -/
theorem getLast?_append_eq {a b : Text} {c : Char} (h : (a ++ b).getLast? = some c) :
    b.getLast? = some c ∨ b = [] ∧ a.getLast? = some c := by
  rw [List.getLast?_append] at h
  cases hb : b.getLast? with
  | none =>
    rw [hb, Option.none_or] at h
    exact .inr ⟨List.getLast?_eq_none_iff.1 hb, h⟩
  | some d =>
    rw [hb, Option.some_or] at h
    exact .inl h

/-- The line of an element does not end in a line feed. -/
theorem opening_getLast? {e : Element} (h : e.IsNamed) : e.opening.getLast? ≠ some '\n' := by
  intro hlast
  have hmem := (lineFeed_mem_opening_iff h).1 (List.mem_of_getLast? hlast)
  cases hid : e.id? with
  | none =>
    rw [hid] at hmem
    exact List.not_mem_nil hmem
  | some id =>
    obtain ⟨-, value, -, rfl⟩ := Element.id?_eq_some hid
    rw [Element.opening, hid] at hlast
    rcases getLast?_append_eq hlast with hlast | ⟨-, hlast⟩
    · have hothers := List.mem_of_getLast? hlast
      refine absurd hothers (Element.lineFeed_not_mem_bracketed fun key value hmem => ?_)
      exact h.not_mem_key (key, value) (List.mem_filter.1 hmem).1
    · rcases getLast?_append_eq hlast with hlast | ⟨-, hlast⟩
      · obtain ⟨name, hname, hmem⟩ := List.mem_flatMap.1 (List.mem_of_getLast? hlast)
        rcases List.mem_cons.1 hmem with hmem | hmem
        · exact absurd hmem (by decide)
        · exact absurd (Element.isBlank_eq_false_of_mem_classes hname _ hmem) (by decide)
      · rcases getLast?_append_eq hlast with hlast | ⟨hnil, -⟩
        · rw [List.getLast?_cons] at hlast
          cases hvalue : (Text.trim value).getLast? with
          | none =>
            rw [hvalue] at hlast
            exact absurd (Option.some.inj hlast) (by decide)
          | some c =>
            rw [hvalue] at hlast
            obtain rfl : c = '\n' := Option.some.inj hlast
            exact absurd (Text.getLast?_trim_not_isBlank hvalue) (by decide)
        · exact absurd hnil (List.cons_ne_nil _ _)

theorem trim_opening_ne_nil {e : Element} (h : e.IsNamed) (behind : Text) :
    Text.trim (e.opening ++ behind) ≠ [] := by
  obtain ⟨c, rest, hopening, hc⟩ := Element.opening_eq_cons h.name_eq
  rw [hopening]
  exact Text.trim_ne_nil_of_mem List.mem_cons_self hc

/-- A line that begins with the opening of an element and goes on with a text that has no line
feed. -/
theorem opening_isClosed (depth : Nat) {e : Element} (h : e.IsNamed) {behind : Text}
    (hbehind : '\n' ∉ behind) :
    (Entry.mk depth (e.opening ++ behind)).IsClosed ∧
      (Entry.mk depth (e.opening ++ behind)).breaks = e.breaks := by
  refine ⟨⟨trim_opening_ne_nil h behind, ?_⟩, ?_⟩
  · intro hlast
    rcases getLast?_append_eq hlast with hlast | ⟨-, hlast⟩
    · exact hbehind (List.mem_of_getLast? hlast)
    · exact opening_getLast? h hlast
  · simp only [Entry.breaks, Element.breaks, List.contains_eq_mem, List.mem_append, hbehind,
      or_false, lineFeed_mem_opening_iff h]

theorem opening_break (depth : Nat) {e : Element} (h : e.IsNamed) :
    Break [⟨depth, e.opening⟩] e.breaks := by
  have hopening := opening_isClosed depth h (List.not_mem_nil (a := '\n'))
  rw [List.append_nil] at hopening
  exact .singleton hopening.1 hopening.2

/-- Lines of text behind bars. -/
theorem pipes_break (depth : Nat) {lines : List Text} (h : ∀ line ∈ lines, '\n' ∉ line) :
    Break (lines.map fun line => ⟨depth, pipe line⟩) false := by
  refine .of_isOneLine fun entry hmem => ?_
  obtain ⟨line, hline, rfl⟩ := List.mem_map.1 hmem
  exact (pipe_isLineAt depth (h line hline)).1

/-- An element whose only child is text breaks where its opening does. -/
theorem inlineEntries_break (depth : Nat) {e : Element} (h : e.IsNamed) (content : Text) :
    Break (inlineEntries depth e content) e.breaks := by
  have hbare := opening_break depth h
  have hbehind : ∀ behind, '\n' ∉ behind →
      Break [⟨depth, e.opening ++ ' ' :: behind⟩] e.breaks := by
    intro behind hbehind
    have hlf : '\n' ∉ ' ' :: behind := by simpa using hbehind
    have hopening := opening_isClosed depth h hlf
    exact .singleton hopening.1 hopening.2
  have hbelow : ∀ lines : List Text, (∀ line ∈ lines, '\n' ∉ line) →
      Break (⟨depth, e.opening⟩ :: lines.map fun line => ⟨depth + 1, pipe line⟩) e.breaks := by
    intro lines hlines
    have happend := hbare.append (pipes_break (depth + 1) hlines)
    rwa [Bool.or_false] at happend
  have hcollapse := Text.lineFeed_not_mem_collapse (Text.trim content)
  simp only [inlineEntries]
  split
  · exact hbare
  · split
    · exact hbehind _ (lineFeed_not_mem_markBreaks false (Text.trim content))
    · split
      · exact hbelow _ fun line hline => (Text.mem_visibleLines hline).2.2
      · split
        · exact hbelow [_] (by simpa using hcollapse)
        · exact hbehind _ hcollapse

/-! ## Comments -/

/-- A line of output of trimmed text. -/
theorem outputText_break (depth : Nat) {body : Text} (h : Text.trim body = body) :
    Break [⟨depth, outputText body⟩] ((outputText body).contains '\n') := by
  refine .singleton ⟨?_, ?_⟩ rfl
  · obtain ⟨rest, heq, -⟩ := outputText_eq_cons body
    rw [heq]
    exact Text.trim_ne_nil_of_mem List.mem_cons_self (by decide)
  · intro hlast
    -- The text ends as the trimmed body does, or in the blank that the writer puts before it.
    have hblank : ∀ start text : Text, '\n' ∉ start → Text.trim text = text →
        (start ++ text).getLast? ≠ some '\n' := by
      intro start text hstart htext hlast
      rcases getLast?_append_eq hlast with hlast | ⟨-, hlast⟩
      · rw [← htext] at hlast
        exact absurd (Text.getLast?_trim_not_isBlank hlast) (by decide)
      · exact hstart (List.mem_of_getLast? hlast)
    unfold outputText at hlast
    split at hlast
    · exact hblank _ _ (by decide) (Text.trim_trim _) hlast
    · exact hblank _ _ (by decide) h hlast

/-- A line of trimmed code behind a mark. -/
theorem mark_break (depth : Nat) {mark : Text} (hmark : Text.trim mark ≠ [])
    (hlf : '\n' ∉ mark) {code : Text} (h : Text.trim code = code) :
    Break [⟨depth, mark ++ code⟩] (code.contains '\n') := by
  refine .singleton ⟨?_, ?_⟩ ?_
  · intro hnil
    rw [Text.trim_eq_nil_iff] at hnil
    exact hmark (Text.trim_eq_nil_iff.2 fun c hc => hnil c (List.mem_append_left _ hc))
  · intro hlast
    rcases getLast?_append_eq hlast with hlast | ⟨-, hlast⟩
    · rw [← h] at hlast
      exact absurd (Text.getLast?_trim_not_isBlank hlast) (by decide)
    · exact hlf (List.mem_of_getLast? hlast)
  · simp only [Entry.breaks, List.contains_eq_mem, List.mem_append, hlf, false_or]

theorem codeLine_break (depth : Nat) {code : Text} (h : Text.trim code = code) :
    Break [⟨depth, codeLine code⟩] (code.contains '\n') :=
  mark_break depth (by decide) (by decide) h

theorem outputLinesEntries_break (depth : Nat) (text : Text) :
    Break (outputLinesEntries depth (Text.visibleLines text)) false := by
  by_cases hnil : Text.visibleLines text = []
  · rw [hnil]
    exact .nil
  · refine .of_isOneLine ?_
    exact (outputLinesEntries_isHeaded depth (fun _ hl => hl) hnil).isLaidOut.oneLine

theorem plainCommentEntries_break (depth : Nat) (text : Text) :
    Break (plainCommentEntries depth (Text.visibleLines text)) false :=
  .of_isOneLine (plainCommentEntries_isHeaded depth fun _ hl => hl).isLaidOut.oneLine

theorem flushLines_break (depth : Nat) (code : Text) :
    Break (⟨depth, "ruby:".toList⟩ :: (flushLines code).map fun line => ⟨depth + 1, line⟩)
      false := by
  refine .of_isOneLine (List.forall_mem_cons.2 ⟨?_, ?_⟩)
  · exact (isLineAt_cons depth (by decide) (by decide)).1
  · intro entry hmem
    obtain ⟨line, hline, rfl⟩ := List.mem_map.1 hmem
    exact flushLines_isOneLine _ hline

/-- A comment breaks where it is written on one line and has a line feed. -/
theorem commentEntries_break (depth : Nat) (content : Text) :
    Break (commentEntries depth content) (commentBreaks content) := by
  have htrim := Text.trim_trim (Directive.decode content).body
  simp only [commentEntries, commentBreaks]
  generalize depth + (Directive.decode content).extraIndent = depth
  -- An empty body writes nothing, and has no line feed.
  have hempty : ∀ (x : Bool) (entry : Entry) (body : Text), Break [entry] x →
      (body.isEmpty = true → x = false) → Break (if body.isEmpty then [] else [entry]) x := by
    intro x entry body hentry hx
    split
    · next h =>
      rw [hx h]
      exact .nil
    · exact hentry
  have houtput := hempty _ _ (Text.trim (Directive.decode content).body)
    (outputText_break depth htrim) (fun h => by rw [List.isEmpty_iff.1 h]; rfl)
  have hcode := hempty _ _ (Text.trim (Directive.decode content).body)
    (codeLine_break depth htrim) (fun h => by rw [List.isEmpty_iff.1 h]; rfl)
  cases hkind : (Directive.decode content).kind with
  | none => exact plainCommentEntries_break depth _
  | some kind =>
    cases kind with
    | codeLines => exact flushLines_break depth _
    | outputLines => exact outputLinesEntries_break depth _
    | outputBlock => exact houtput
    | output => exact houtput
    | codeBlock => exact hcode
    | code => exact hcode
    | stop => exact .nil

/-! ## Nodes -/

theorem textEntries_break (depth : Nat) (content : Text) :
    Break (textEntries depth content) false :=
  .of_isOneLine fun entry hmem => (textEntries_isLineAt depth content entry hmem).1

theorem blockLine_break (depth : Nat) (isOutput : Bool) {code : Text}
    (h : Text.trim code = code) :
    Break [⟨depth, blockLine isOutput code⟩] (code.contains '\n') := by
  rw [blockLine]
  split
  · exact mark_break depth (by decide) (by decide) h
  · exact codeLine_break depth h

mutual

/-- A node breaks where one of its entries does, and each of its entries is closed. -/
theorem nodeEntries_break (depth : Nat) :
    (node : Node) → node.IsProper → Break (nodeEntries depth node) node.breaks
  | .text content, _ => by
    rw [nodeEntries, Node.breaks]
    exact textEntries_break depth content
  | .comment content, _ => by
    rw [nodeEntries, Node.breaks]
    exact commentEntries_break depth content
  | .block isOutput code children, h => by
    rw [nodeEntries, Node.breaks]
    split
    · next hcode =>
      rw [List.isEmpty_iff.1 hcode]
      exact nodesEntries_break depth children h.2
    · exact (blockLine_break depth isOutput h.1).append
        (nodesEntries_break (depth + 1) children h.2)
  | .element name attributes children, h => by
    have hopening := opening_break depth h.1
    have hchildren := nodesEntries_break (depth + 1) children h.2
    simp only [nodeEntries, Node.breaks]
    cases hvoid : isVoid name with
    | true =>
      rw [Bool.true_or, if_pos rfl, Bool.not_true, Bool.false_and, Bool.or_false]
      exact hopening
    | false =>
      rw [Bool.false_or, Bool.not_false, Bool.true_and]
      split
      · next hnil =>
        rw [List.isEmpty_iff.1 hnil, nodesBreak, Bool.or_false]
        exact hopening
      · cases hsingle : singleText? children with
        | none => exact hopening.append hchildren
        | some content =>
          have hbreak : nodesBreak children = false := by
            unfold singleText? at hsingle
            split at hsingle
            · rfl
            · cases hsingle
          rw [hbreak, Bool.or_false]
          exact inlineEntries_break depth h.1 content

/-- Nodes side by side break where one of their entries does. -/
theorem nodesEntries_break (depth : Nat) :
    (nodes : List Node) → nodesProper nodes → Break (nodesEntries depth nodes) (nodesBreak nodes)
  | [], _ => .nil
  | node :: nodes, h => by
    rw [nodesEntries, nodesBreak]
    exact (nodeEntries_break depth node h.1).append (nodesEntries_break depth nodes h.2)

end

end Writer

end SlimTemplate
