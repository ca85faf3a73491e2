import SlimTemplate.Proofs.Writer.Nodes

/-!
# Lines that stand at their depth

But for the bodies of blocks of code, every line that is written begins with a character that is
not blank, so it is read back at exactly its depth. What a text, a comment or an element with text
writes is one such line at its depth, and the others one level deeper.

## Main definitions

* `Writer.Entry.IsFlushAt`: a line at a depth that begins with a character that is not blank.
* `Writer.IsFlushHeaded`: lines of which the first stands at a depth and the others one level
  deeper.

## Main statements

* `Writer.inlineEntries_isFlushHeaded`, `Writer.commentEntries_isFlushHeaded`: the lines of an
  element with text, and of a comment.
* `Writer.commentEntries_of_codeLines`: the lines of a block of code.
-/

namespace SlimTemplate.Writer

open Markup

/-- A line that begins with a character that is not blank. -/
def Entry.IsFlush (entry : Entry) : Prop :=
  ∃ c rest, entry.text = c :: rest ∧ Text.isBlank c = false

/-- A line at a depth that begins with a character that is not blank. -/
def Entry.IsFlushAt (depth : Nat) (entry : Entry) : Prop :=
  entry.IsFlush ∧ entry.depth = depth

/-- Lines that begin with a character that is not blank, the first at a depth and the others one
level deeper. -/
structure IsFlushHeaded (depth : Nat) (entries : List Entry) : Prop where
  head : ∀ entry, entries.head? = some entry → entry.IsFlushAt depth
  tail : ∀ entry ∈ entries.tail, entry.IsFlushAt (depth + 1)

variable {depth : Nat} {layout : Layout} {entry : Entry} {entries : List Entry}

theorem Entry.IsFlush.level_eq (h : entry.IsFlush) (layout : Layout) :
    entry.level layout = entry.depth := by
  obtain ⟨c, rest, htext, hc⟩ := h
  refine Entry.level_of_head?_ne ?_
  rw [htext, List.head?_cons, ne_eq, Option.some.injEq]
  rintro rfl
  exact absurd hc (by decide)

theorem Entry.IsFlushAt.level_eq (h : entry.IsFlushAt depth) (layout : Layout) :
    entry.level layout = depth :=
  (h.1.level_eq layout).trans h.2

/-- Taking the blanks from the end leaves the indentation and the trimmed text. -/
theorem Entry.IsFlush.trimEnd_line (h : entry.IsFlush) (layout : Layout) :
    Text.trimEnd (entry.line layout) = layout.indent entry.depth ++ Text.trim entry.text := by
  obtain ⟨c, rest, htext, hc⟩ := h
  rw [Entry.line, htext, Text.trimEnd_append_cons hc, Text.trim_cons_of_not_isBlank hc]

theorem isFlushHeaded_nil (depth : Nat) : IsFlushHeaded depth [] :=
  ⟨by simp, by simp⟩

theorem isFlushHeaded_cons (hhead : entry.IsFlushAt depth)
    (htail : ∀ e ∈ entries, e.IsFlushAt (depth + 1)) : IsFlushHeaded depth (entry :: entries) :=
  ⟨fun _ he => Option.some.inj he ▸ hhead, htail⟩

theorem isFlushHeaded_singleton (h : entry.IsFlushAt depth) : IsFlushHeaded depth [entry] :=
  isFlushHeaded_cons h (by simp)

theorem IsFlushHeaded.isFlush (h : IsFlushHeaded depth entries) :
    ∀ entry ∈ entries, entry.IsFlush := by
  cases entries with
  | nil => simp
  | cons first rest => exact List.forall_mem_cons.2 ⟨(h.head first rfl).1, fun e he => (h.tail e he).1⟩

/-! ## Single lines -/

theorem isFlushAt_cons (depth : Nat) {c : Char} (hc : Text.isBlank c = false) (rest : Text) :
    (Entry.mk depth (c :: rest)).IsFlushAt depth :=
  ⟨⟨c, rest, rfl, hc⟩, rfl⟩

theorem pipe_isFlushAt (depth : Nat) (line : Text) :
    (Entry.mk depth (pipe line)).IsFlushAt depth :=
  isFlushAt_cons depth (by decide) _

theorem codeLine_isFlushAt (depth : Nat) (code : Text) :
    (Entry.mk depth (codeLine code)).IsFlushAt depth :=
  isFlushAt_cons depth (by decide) _

theorem visibleLine_isFlushAt (depth : Nat) {line text : Text} (h : line ∈ Text.visibleLines text)
    (ending : Text) : (Entry.mk depth (line ++ ending)).IsFlushAt depth := by
  obtain ⟨hne, htrim, -⟩ := Text.mem_visibleLines h
  obtain ⟨c, rest, rfl⟩ := List.exists_cons_of_ne_nil hne
  exact isFlushAt_cons depth (Text.head?_trim_not_isBlank (by rw [htrim]; rfl)) _

theorem opening_isFlushAt (depth : Nat) {e : Element}
    (h : ∃ c rest, e.name = c :: rest ∧ c.isAlpha = true) (behind : Text) :
    (Entry.mk depth (e.opening ++ behind)).IsFlushAt depth := by
  obtain ⟨c, rest, hopening, hc⟩ := Element.opening_eq_cons h
  rw [hopening]
  exact isFlushAt_cons depth hc _

theorem bare_isFlushAt (depth : Nat) {e : Element}
    (h : ∃ c rest, e.name = c :: rest ∧ c.isAlpha = true) :
    (Entry.mk depth e.opening).IsFlushAt depth := by
  simpa using opening_isFlushAt depth h []

theorem outputText_isFlushAt (depth : Nat) (expression ending : Text) :
    (Entry.mk depth (outputText expression ++ ending)).IsFlushAt depth := by
  obtain ⟨rest, houtput, -⟩ := outputText_eq_cons expression
  rw [houtput]
  exact isFlushAt_cons depth (by decide) _

theorem blockLine_isFlushAt (depth : Nat) (isOutput : Bool) (code : Text) :
    (Entry.mk depth (blockLine isOutput code)).IsFlushAt depth := by
  rw [blockLine]
  split
  · exact isFlushAt_cons depth (by decide) _
  · exact codeLine_isFlushAt depth code

/-! ## Texts, and elements with text -/

/-- All lines of a piece of text stand at one depth. -/
theorem textEntries_isFlushAt (depth : Nat) (content : Text) :
    ∀ entry ∈ textEntries depth content, entry.IsFlushAt depth := by
  intro entry hentry
  rw [textEntries] at hentry
  split at hentry
  · cases hentry
  · rw [List.mem_singleton.1 hentry]
    exact pipe_isFlushAt depth _
  · obtain ⟨line, -, rfl⟩ := List.mem_map.1 hentry
    exact pipe_isFlushAt depth line

theorem inlineEntries_isFlushHeaded (depth : Nat) {e : Element}
    (h : ∃ c rest, e.name = c :: rest ∧ c.isAlpha = true) (content : Text) :
    IsFlushHeaded depth (inlineEntries depth e content) := by
  have hbare := bare_isFlushAt depth h
  have hbehind : ∀ text, IsFlushHeaded depth [⟨depth, e.opening ++ ' ' :: text⟩] :=
    fun text => isFlushHeaded_singleton (opening_isFlushAt depth h _)
  simp only [inlineEntries]
  split
  · exact isFlushHeaded_singleton hbare
  · split
    · exact hbehind _
    · split
      · exact isFlushHeaded_cons hbare (List.forall_mem_map.2 fun line _ => pipe_isFlushAt _ line)
      · split
        · exact isFlushHeaded_cons hbare (List.forall_mem_singleton.2 (pipe_isFlushAt _ _))
        · exact hbehind _

/-! ## Comments -/

theorem continuationEntries_isFlushAt (depth : Nat) {lines : List Text} {text : Text}
    (h : ∀ line ∈ lines, line ∈ Text.visibleLines text) :
    ∀ entry ∈ continuationEntries depth lines, entry.IsFlushAt depth := by
  fun_induction continuationEntries depth lines with
  | case1 => simp
  | case2 last => simpa using visibleLine_isFlushAt depth (h last List.mem_cons_self) []
  | case3 line more _ ih =>
    obtain ⟨hline, hmore⟩ := List.forall_mem_cons.1 h
    exact List.forall_mem_cons.2 ⟨visibleLine_isFlushAt depth hline _, ih hmore⟩

theorem outputLinesEntries_isFlushHeaded (depth : Nat) {lines : List Text} {text : Text}
    (h : ∀ line ∈ lines, line ∈ Text.visibleLines text) :
    IsFlushHeaded depth (outputLinesEntries depth lines) := by
  fun_cases outputLinesEntries depth lines with
  | case1 => exact isFlushHeaded_nil depth
  | case2 only => exact isFlushHeaded_singleton (by simpa using outputText_isFlushAt depth only [])
  | case3 first more _ =>
    exact isFlushHeaded_cons (outputText_isFlushAt depth first _)
      (continuationEntries_isFlushAt (depth + 1) (List.forall_mem_cons.1 h).2)

theorem plainCommentEntries_isFlushHeaded (depth : Nat) {lines : List Text} {text : Text}
    (h : ∀ line ∈ lines, line ∈ Text.visibleLines text) :
    IsFlushHeaded depth (plainCommentEntries depth lines) := by
  cases lines with
  | nil => exact isFlushHeaded_singleton (isFlushAt_cons depth (by decide) _)
  | cons first more =>
    obtain ⟨-, hmore⟩ := List.forall_mem_cons.1 h
    refine isFlushHeaded_cons (isFlushAt_cons depth (by decide) _) (List.forall_mem_map.2 ?_)
    intro line hline
    simpa using visibleLine_isFlushAt (depth + 1) (hmore line hline) []

/-- The lines of a comment that is no block of code and asks for no deeper indentation. -/
theorem commentEntries_isFlushHeaded (depth : Nat) {content : Text}
    (hindent : ¬Directive.EndsInIndent content)
    (hkind : (Directive.decode content).kind ≠ some .codeLines) :
    IsFlushHeaded depth (commentEntries depth content) := by
  simp only [commentEntries, Directive.decode_extraIndent hindent, Nat.add_zero]
  have houtput : ∀ body : Text,
      IsFlushHeaded depth (if body.isEmpty then [] else [⟨depth, outputText body⟩]) := by
    intro body
    split
    · exact isFlushHeaded_nil depth
    · exact isFlushHeaded_singleton (by simpa using outputText_isFlushAt depth body [])
  have hcode : ∀ body : Text,
      IsFlushHeaded depth (if body.isEmpty then [] else [⟨depth, codeLine body⟩]) := by
    intro body
    split
    · exact isFlushHeaded_nil depth
    · exact isFlushHeaded_singleton (codeLine_isFlushAt depth body)
  split
  · next hlines => exact absurd hlines hkind
  · exact outputLinesEntries_isFlushHeaded depth fun _ hline => hline
  · exact houtput _
  · exact houtput _
  · exact hcode _
  · exact hcode _
  · exact isFlushHeaded_nil depth
  · exact plainCommentEntries_isFlushHeaded depth fun _ hline => hline

/-- The lines of a block of code that asks for no deeper indentation. -/
theorem commentEntries_of_codeLines (depth : Nat) {content : Text}
    (hindent : ¬Directive.EndsInIndent content)
    (hkind : (Directive.decode content).kind = some .codeLines) :
    commentEntries depth content = ⟨depth, "ruby:".toList⟩ ::
      (flushLines (Directive.decode content).body).map fun line => ⟨depth + 1, line⟩ := by
  simp only [commentEntries, Directive.decode_extraIndent hindent, Nat.add_zero, hkind]

end SlimTemplate.Writer
