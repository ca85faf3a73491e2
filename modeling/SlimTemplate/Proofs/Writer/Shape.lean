import SlimTemplate.Proofs.Text.Search
import SlimTemplate.Proofs.Writer.Line
import SlimTemplate.Proofs.Writer.Opening

/-!
# How deep the lines of a node stand

The lines of a node stand at its depth or deeper, and the first of them exactly at its depth. The
first line of an element, of a block with code and of a comment is the only one of its lines at
that depth. This holds as long as everything that is written on one line fits on one.

## Main definitions

* `Markup.Node.FitsLines`: what a node writes on one line has no line feed.
* `Markup.Document.comments`: the comments in a document.
* `Writer.IsLaidOut`, `Writer.IsHeaded`: lines at a depth or deeper, and those of which only the
  first is at that depth.

## Main statements

* `Writer.nodeEntries_isLaidOut`: the lines of a node are laid out at its depth.
* `Writer.commentEntries_isHeaded`: the lines of a comment are headed by the first.
-/

namespace SlimTemplate

namespace Directive

/-- Whether a comment of this kind is written on one line. -/
def CommentKind.isOneLine : CommentKind → Bool
  | output | outputBlock | code | codeBlock => true
  | codeLines | outputLines | stop => false

/-- Whether the text of a comment ends in a request for deeper indentation. -/
def EndsInIndent (content : Text) : Prop :=
  ∃ before digits, Text.trim content = before ++ indentLabel ++ digits ∧ digits ≠ [] ∧
    ∀ c ∈ digits, Text.isDecimalDigit c = true

theorem cutIndent_of_not_endsInIndent {content : Text} (h : ¬EndsInIndent content) :
    cutIndent (Text.trim content) = (Text.trim content, 0) := by
  simp only [cutIndent]
  split
  · rfl
  · next hcut =>
    simp only [Bool.or_eq_true, Bool.not_eq_true', not_or, Bool.not_eq_false,
      Text.hasSuffix_iff] at hcut
    obtain ⟨hdigits, before, hbefore⟩ := hcut
    have hsplit : Text.trim content =
        ((Text.trim content).reverse.dropWhile Text.isDecimalDigit).reverse ++
          ((Text.trim content).reverse.takeWhile Text.isDecimalDigit).reverse := by
      rw [← List.reverse_append, List.takeWhile_append_dropWhile, List.reverse_reverse]
    refine absurd ⟨before, _, hbefore ▸ hsplit, ?_, ?_⟩ h
    · simpa using hdigits
    · intro c hc
      exact List.mem_takeWhile_imp (List.mem_reverse.1 hc)

/-- A comment that asks for deeper indentation ends in a digit. -/
theorem not_endsInIndent {content : Text}
    (h : (Text.trim content).getLast?.any Text.isDecimalDigit = false) :
    ¬EndsInIndent content := by
  rintro ⟨before, digits, hcontent, hne, hdigits⟩
  have hlast := hdigits _ (List.getLast_mem hne)
  rw [hcontent, List.getLast?_append_of_ne_nil _ hne, List.getLast?_eq_some_getLast hne,
    Option.any_some, hlast] at h
  cases h

theorem decode_extraIndent {content : Text} (h : ¬EndsInIndent content) :
    (decode content).extraIndent = 0 := by
  simp only [decode, cutIndent_of_not_endsInIndent h]
  split <;> rfl

/-- A comment that asks for no deeper indentation, and whose code is on one line if it is written
on one. -/
def CommentFitsLine (content : Text) : Prop :=
  ¬EndsInIndent content ∧
    ∀ kind, (decode content).kind = some kind → kind.isOneLine = true →
      '\n' ∉ (decode content).body

end Directive

namespace Markup

mutual

/-- Whether all that a node and the nodes in it write on one line fits on one line. -/
def Node.FitsLines : Node → Prop
  | .text _ => True
  | .comment content => Directive.CommentFitsLine content
  | .block _ code children => '\n' ∉ code ∧ nodesFitLines children
  | .element name attributes children =>
    Element.FitsLine ⟨name, attributes⟩ ∧ nodesFitLines children

/-- Whether all that nodes side by side write on one line fits on one line. -/
def nodesFitLines : List Node → Prop
  | [] => True
  | node :: nodes => node.FitsLines ∧ nodesFitLines nodes

end

theorem nodesFitLines_iff {nodes : List Node} :
    nodesFitLines nodes ↔ ∀ node ∈ nodes, node.FitsLines := by
  induction nodes with
  | nil => simp [nodesFitLines]
  | cons node nodes ih => simp [nodesFitLines, ih]

mutual

/-- The comments in a node, in order. -/
def Node.comments : Node → List Text
  | .text _ => []
  | .comment content => [content]
  | .block _ _ children => nodesComments children
  | .element _ _ children => nodesComments children

/-- The comments in nodes side by side, in order. -/
def nodesComments : List Node → List Text
  | [] => []
  | node :: nodes => node.comments ++ nodesComments nodes

end

/-- The comments in a document, in order. -/
def Document.comments (document : Document) : List Text :=
  nodesComments document.nodes

end Markup

namespace Writer

open Markup

/-- A line that is at a depth and does not begin with a space. -/
def Entry.IsLineAt (depth : Nat) (entry : Entry) : Prop :=
  entry.IsOneLine ∧ entry.depth = depth ∧ entry.text.head? ≠ some ' '

/-- Lines that stand at a depth or deeper, the first of them exactly there. -/
structure IsLaidOut (depth : Nat) (entries : List Entry) : Prop where
  /-- Each of them is one line. -/
  oneLine : ∀ entry ∈ entries, entry.IsOneLine
  depth_le : ∀ entry ∈ entries, depth ≤ entry.depth
  /-- The first one is exactly there. -/
  first : ∀ entry, entries.head? = some entry → entry.IsLineAt depth

/-- Lines of which the first stands at a depth and the others deeper. -/
def IsHeaded (depth : Nat) (entries : List Entry) : Prop :=
  ∃ head rest, entries = head :: rest ∧ head.IsLineAt depth ∧
    ∀ entry ∈ rest, entry.IsOneLine ∧ depth < entry.depth

theorem isLaidOut_nil (depth : Nat) : IsLaidOut depth [] :=
  ⟨by simp, by simp, by simp⟩

theorem IsHeaded.isLaidOut {depth : Nat} {entries : List Entry} (h : IsHeaded depth entries) :
    IsLaidOut depth entries := by
  obtain ⟨head, rest, rfl, hhead, hrest⟩ := h
  refine ⟨?_, ?_, ?_⟩
  · intro entry hmem
    rcases List.mem_cons.1 hmem with rfl | hmem
    · exact hhead.1
    · exact (hrest entry hmem).1
  · intro entry hmem
    rcases List.mem_cons.1 hmem with rfl | hmem
    · exact hhead.2.1.ge
    · exact (hrest entry hmem).2.le
  · intro entry heq
    obtain rfl := Option.some.inj heq
    exact hhead

theorem IsLaidOut.append {depth : Nat} {a b : List Entry} (ha : IsLaidOut depth a)
    (hb : IsLaidOut depth b) : IsLaidOut depth (a ++ b) := by
  refine ⟨?_, ?_, ?_⟩
  · intro entry hmem
    rcases List.mem_append.1 hmem with hmem | hmem
    · exact ha.oneLine entry hmem
    · exact hb.oneLine entry hmem
  · intro entry hmem
    rcases List.mem_append.1 hmem with hmem | hmem
    · exact ha.depth_le entry hmem
    · exact hb.depth_le entry hmem
  · intro entry heq
    cases a with
    | nil => exact hb.first entry heq
    | cons head rest => exact ha.first entry heq

/-- A line before lines that are laid out one level deeper heads them. -/
theorem isHeaded_cons {depth : Nat} {head : Entry} {rest : List Entry}
    (hhead : head.IsLineAt depth) (hrest : IsLaidOut (depth + 1) rest) :
    IsHeaded depth (head :: rest) :=
  ⟨head, rest, rfl, hhead, fun entry hmem =>
    ⟨hrest.oneLine entry hmem, hrest.depth_le entry hmem⟩⟩

theorem isHeaded_singleton {depth : Nat} {head : Entry} (hhead : head.IsLineAt depth) :
    IsHeaded depth [head] :=
  isHeaded_cons hhead (isLaidOut_nil _)

/-- Lines at one depth are laid out there. -/
theorem isLaidOut_of_isLineAt {depth : Nat} {entries : List Entry}
    (h : ∀ entry ∈ entries, entry.IsLineAt depth) : IsLaidOut depth entries :=
  ⟨fun entry hmem => (h entry hmem).1, fun entry hmem => (h entry hmem).2.1.ge,
    fun entry heq => h entry (List.mem_of_mem_head? heq)⟩

/-! ## Single lines -/

/-- A text that begins with a character other than a blank and has no line feed is a line. -/
theorem isLineAt_cons (depth : Nat) {c : Char} {rest : Text} (hc : Text.isBlank c = false)
    (h : '\n' ∉ rest) : (Entry.mk depth (c :: rest)).IsLineAt depth := by
  refine ⟨⟨?_, ?_⟩, rfl, ?_⟩
  · exact Text.trim_ne_nil_of_mem List.mem_cons_self hc
  · intro hmem
    rcases List.mem_cons.1 hmem with rfl | hmem
    · exact absurd hc (by decide)
    · exact h hmem
  · intro heq
    obtain rfl := Option.some.inj heq
    exact absurd hc (by decide)

theorem pipe_eq_cons (line : Text) : pipe line = '|' :: ' ' :: line :=
  rfl

theorem codeLine_eq_cons (code : Text) : codeLine code = '-' :: ' ' :: code :=
  rfl

theorem pipe_isLineAt (depth : Nat) {line : Text} (h : '\n' ∉ line) :
    (Entry.mk depth (pipe line)).IsLineAt depth := by
  rw [pipe_eq_cons]
  exact isLineAt_cons depth (by decide) (by simpa using h)

theorem codeLine_isLineAt (depth : Nat) {code : Text} (h : '\n' ∉ code) :
    (Entry.mk depth (codeLine code)).IsLineAt depth := by
  rw [codeLine_eq_cons]
  exact isLineAt_cons depth (by decide) (by simpa using h)

/-- A line of output begins with `=` and holds little more than the expression. -/
theorem outputText_eq_cons (expression : Text) :
    ∃ rest, outputText expression = '=' :: rest ∧
      ∀ c ∈ rest, c = '=' ∨ c = ' ' ∨ c ∈ expression := by
  unfold outputText
  split
  · next raw =>
    refine ⟨'=' :: ' ' :: Text.trim raw, rfl, ?_⟩
    intro c hc
    rcases List.mem_cons.1 hc with rfl | hc
    · exact Or.inl rfl
    · rcases List.mem_cons.1 hc with rfl | hc
      · exact Or.inr (Or.inl rfl)
      · exact Or.inr (Or.inr (List.mem_cons_of_mem _ (Text.mem_of_mem_trim hc)))
  · refine ⟨' ' :: expression, rfl, ?_⟩
    intro c hc
    rcases List.mem_cons.1 hc with rfl | hc
    · exact Or.inr (Or.inl rfl)
    · exact Or.inr (Or.inr hc)

theorem outputText_isLineAt (depth : Nat) {expression : Text} (h : '\n' ∉ expression)
    {ending : Text} (hending : '\n' ∉ ending) :
    (Entry.mk depth (outputText expression ++ ending)).IsLineAt depth := by
  obtain ⟨rest, heq, hrest⟩ := outputText_eq_cons expression
  rw [heq, List.cons_append]
  refine isLineAt_cons depth (by decide) ?_
  intro hmem
  rcases List.mem_append.1 hmem with hmem | hmem
  · rcases hrest _ hmem with hc | hc | hc
    · exact absurd hc (by decide)
    · exact absurd hc (by decide)
    · exact h hc
  · exact hending hmem

theorem visibleLine_isOneLine (depth : Nat) {line text : Text}
    (h : line ∈ Text.visibleLines text) : (Entry.mk depth line).IsOneLine := by
  obtain ⟨hne, htrim, hlf⟩ := Text.mem_visibleLines h
  exact ⟨by rwa [htrim], hlf⟩

end Writer

end SlimTemplate
