import SlimTemplate.Proofs.Writer.Shape

/-!
# The lines of nodes are laid out

Every kind of node writes its lines at its depth or deeper, the first exactly there. By induction
on the tree the lines of what a node encloses lie one level deeper than its own line.

## Main statements

* `Writer.textEntries_isLineAt`, `Writer.inlineEntries_eq_cons`, `Writer.commentEntries_isHeaded`:
  the lines of a text, of an element with text, and of a comment.
* `Writer.nodeEntries_isLaidOut`: the lines of a node are laid out at its depth.
-/

namespace SlimTemplate.Writer

open Markup

/-- All lines of a piece of text stand at one depth. -/
theorem textEntries_isLineAt (depth : Nat) (content : Text) :
    ∀ entry ∈ textEntries depth content, entry.IsLineAt depth := by
  intro entry hmem
  unfold textEntries at hmem
  split at hmem
  · simp at hmem
  · obtain rfl := List.mem_singleton.1 hmem
    exact pipe_isLineAt depth (Text.lineFeed_not_mem_collapse content)
  · obtain ⟨line, hline, rfl⟩ := List.mem_map.1 hmem
    exact pipe_isLineAt depth (Text.mem_visibleLines hline).2.2

theorem lineFeed_not_mem_markBreaks (afterBreak : Bool) (text : Text) :
    '\n' ∉ markBreaks afterBreak text := by
  fun_induction markBreaks afterBreak text with
  | case1 => simp
  | case2 _ _ _ _ ih => exact ih
  | case3 _ _ _ ih =>
    intro hmem
    rcases List.mem_append.1 hmem with hmem | hmem
    · exact absurd hmem (by decide)
    · exact ih hmem
  | case4 _ c _ _ hc ih =>
    intro hmem
    rcases List.mem_cons.1 hmem with hmem | hmem
    · exact hc hmem.symm
    · exact ih hmem

/-- A line that begins with the opening of an element. -/
theorem opening_isLineAt (depth : Nat) {e : Element} (h : e.FitsLine) {behind : Text}
    (hbehind : '\n' ∉ behind) : (Entry.mk depth (e.opening ++ behind)).IsLineAt depth := by
  have hlf := Element.lineFeed_not_mem_opening h
  obtain ⟨c, rest, heq, hc⟩ := Element.opening_eq_cons h.1
  rw [heq] at hlf ⊢
  refine isLineAt_cons depth hc ?_
  intro hmem
  rcases List.mem_append.1 hmem with hmem | hmem
  · exact hlf (List.mem_cons_of_mem _ hmem)
  · exact hbehind hmem

/-- An element whose only child is text writes its own line and then, one level deeper, the lines
of the text that do not stand behind its opening. -/
theorem inlineEntries_eq_cons (depth : Nat) {e : Element} (h : e.FitsLine) (content : Text) :
    ∃ head rest, inlineEntries depth e content = head :: rest ∧ head.IsLineAt depth ∧
      ∀ entry ∈ rest, entry.IsLineAt (depth + 1) := by
  have hbare : (Entry.mk depth e.opening).IsLineAt depth := by
    simpa using opening_isLineAt depth h (List.not_mem_nil (a := '\n'))
  simp only [inlineEntries]
  split
  · exact ⟨_, [], rfl, hbare, by simp⟩
  · split
    · refine ⟨_, [], rfl, opening_isLineAt depth h ?_, by simp⟩
      simpa using lineFeed_not_mem_markBreaks false (Text.trim content)
    · split
      · refine ⟨_, _, rfl, hbare, ?_⟩
        intro entry hmem
        obtain ⟨line, hline, rfl⟩ := List.mem_map.1 hmem
        exact pipe_isLineAt _ (Text.mem_visibleLines hline).2.2
      · have hlf := Text.lineFeed_not_mem_collapse (Text.trim content)
        split
        · refine ⟨_, _, rfl, hbare, ?_⟩
          intro entry hmem
          obtain rfl := List.mem_singleton.1 hmem
          exact pipe_isLineAt _ hlf
        · exact ⟨_, [], rfl, opening_isLineAt depth h (by simpa using hlf), by simp⟩

/-! ## Comments -/

theorem isBlank_of_mem_take_leadingGap {line : Text} {c : Char}
    (h : c ∈ line.take (leadingGap line)) : Text.isBlank c = true := by
  have hpre := List.takeWhile_prefix (fun c => decide (c = ' ') || decide (c = '\t')) (l := line)
  rw [leadingGap, ← List.prefix_iff_eq_take.1 hpre] at h
  have hgap := List.mem_takeWhile_imp h
  simp only [Bool.or_eq_true, decide_eq_true_eq] at hgap
  rcases hgap with rfl | rfl <;> decide

/-- A line that is not blank is not blank without a part of its indentation. -/
theorem trim_drop_ne_nil {line : Text} {n : Nat} (hn : n ≤ leadingGap line)
    (h : Text.trim line ≠ []) : Text.trim (line.drop n) ≠ [] := by
  have hblank : ∀ c ∈ line.take n, Text.isBlank c = true := by
    intro c hc
    exact isBlank_of_mem_take_leadingGap (List.take_subset_take_left line hn hc)
  rwa [← List.take_append_drop n line, Text.trim_append_of_isBlank_left hblank] at h

/-- The lines of a block of code are not blank and have no line feed. -/
theorem flushLines_isOneLine (depth : Nat) {code line : Text} (h : line ∈ flushLines code) :
    (Entry.mk depth line).IsOneLine := by
  simp only [flushLines, List.mem_map] at h
  obtain ⟨whole, hwhole, rfl⟩ := h
  obtain ⟨hend, hne⟩ := List.mem_filter.1 hwhole
  obtain ⟨physical, hphysical, rfl⟩ := List.mem_map.1 hend
  constructor
  · refine trim_drop_ne_nil ?_ (Text.trim_trimEnd_ne_nil (by simpa using hne))
    exact List.min?_getD_le_of_mem (List.mem_map.2 ⟨_, hwhole, rfl⟩)
  · intro hmem
    have hphys := (Text.trimEnd_isPrefix physical).subset (List.mem_of_mem_drop hmem)
    exact Text.lineFeed_not_mem_of_mem_lines hphysical hphys

/-- The lines of an output expression after the first stand at one depth. -/
theorem continuationEntries_isOneLine (depth : Nat) {lines : List Text} {text : Text}
    (h : ∀ line ∈ lines, line ∈ Text.visibleLines text) :
    ∀ entry ∈ continuationEntries depth lines, entry.IsOneLine ∧ entry.depth = depth := by
  fun_induction continuationEntries depth lines with
  | case1 => simp
  | case2 last =>
    intro entry hmem
    obtain rfl := List.mem_singleton.1 hmem
    exact ⟨visibleLine_isOneLine _ (h last List.mem_cons_self), rfl⟩
  | case3 line more _ ih =>
    intro entry hmem
    rcases List.mem_cons.1 hmem with rfl | hmem
    · have hlf := (Text.mem_visibleLines (h line List.mem_cons_self)).2.2
      refine ⟨⟨?_, ?_⟩, rfl⟩
      · have hmem : '\\' ∈ continued line := List.mem_append_right _ (by decide)
        exact Text.trim_ne_nil_of_mem hmem (by decide)
      · simpa [continued] using hlf
    · exact ih (fun l hl => h l (List.mem_cons_of_mem _ hl)) entry hmem

theorem outputLinesEntries_isHeaded (depth : Nat) {lines : List Text} {text : Text}
    (h : ∀ line ∈ lines, line ∈ Text.visibleLines text) (hne : lines ≠ []) :
    IsHeaded depth (outputLinesEntries depth lines) := by
  have hlf : ∀ line ∈ lines, '\n' ∉ line := fun line hl => (Text.mem_visibleLines (h line hl)).2.2
  unfold outputLinesEntries
  split
  · exact absurd rfl hne
  · next only =>
    refine isHeaded_singleton ?_
    simpa using outputText_isLineAt depth (hlf only List.mem_cons_self) (List.not_mem_nil (a := '\n'))
  · next first more _ =>
    refine ⟨_, _, rfl, outputText_isLineAt depth (hlf first List.mem_cons_self) (by decide), ?_⟩
    intro entry hmem
    obtain ⟨hone, hdepth⟩ := continuationEntries_isOneLine (depth + 1)
      (fun l hl => h l (List.mem_cons_of_mem _ hl)) entry hmem
    exact ⟨hone, by omega⟩

theorem plainCommentEntries_isHeaded (depth : Nat) {lines : List Text} {text : Text}
    (h : ∀ line ∈ lines, line ∈ Text.visibleLines text) :
    IsHeaded depth (plainCommentEntries depth lines) := by
  unfold plainCommentEntries
  split
  · exact isHeaded_singleton (isLineAt_cons depth (by decide) (by decide))
  · next first more =>
    have hlf := (Text.mem_visibleLines (h first List.mem_cons_self)).2.2
    refine ⟨_, _, rfl, isLineAt_cons depth (by decide) ?_, ?_⟩
    · intro hmem
      rcases List.mem_append.1 hmem with hmem | hmem
      · exact absurd hmem (by decide)
      · exact hlf hmem
    · intro entry hmem
      obtain ⟨line, hline, rfl⟩ := List.mem_map.1 hmem
      exact ⟨visibleLine_isOneLine _ (h line (List.mem_cons_of_mem _ hline)),
        Nat.lt_succ_self depth⟩

/-- The lines of a comment, if there are any, are headed by the first. -/
theorem commentEntries_isHeaded (depth : Nat) {content : Text}
    (h : Directive.CommentFitsLine content) :
    commentEntries depth content = [] ∨ IsHeaded depth (commentEntries depth content) := by
  have hbody : ∀ kind, (Directive.decode content).kind = some kind → kind.isOneLine = true →
      '\n' ∉ Text.trim (Directive.decode content).body := by
    intro kind hkind hone hmem
    exact h.2 kind hkind hone (Text.mem_of_mem_trim hmem)
  have houtput : ∀ kind, (Directive.decode content).kind = some kind → kind.isOneLine = true →
      IsHeaded depth [⟨depth, outputText (Text.trim (Directive.decode content).body)⟩] := by
    intro kind hkind hone
    refine isHeaded_singleton ?_
    simpa using outputText_isLineAt depth (hbody kind hkind hone) (List.not_mem_nil (a := '\n'))
  have hcode : ∀ kind, (Directive.decode content).kind = some kind → kind.isOneLine = true →
      IsHeaded depth [⟨depth, codeLine (Text.trim (Directive.decode content).body)⟩] := by
    intro kind hkind hone
    exact isHeaded_singleton (codeLine_isLineAt depth (hbody kind hkind hone))
  -- Without a request for more indentation the lines stand at the depth of the comment.
  simp only [commentEntries, Directive.decode_extraIndent h.1, Nat.add_zero]
  split
  · right
    refine ⟨_, _, rfl, isLineAt_cons depth (by decide) (by decide), ?_⟩
    intro entry hmem
    obtain ⟨line, hline, rfl⟩ := List.mem_map.1 hmem
    exact ⟨flushLines_isOneLine _ hline, Nat.lt_succ_self depth⟩
  · by_cases hnil : Text.visibleLines (Text.trim (Directive.decode content).body) = []
    · exact Or.inl (by rw [hnil, outputLinesEntries])
    · exact Or.inr (outputLinesEntries_isHeaded depth (fun _ hl => hl) hnil)
  · next hkind =>
    split
    · exact Or.inl rfl
    · exact Or.inr (houtput _ hkind rfl)
  · next hkind =>
    split
    · exact Or.inl rfl
    · exact Or.inr (houtput _ hkind rfl)
  · next hkind =>
    split
    · exact Or.inl rfl
    · exact Or.inr (hcode _ hkind rfl)
  · next hkind =>
    split
    · exact Or.inl rfl
    · exact Or.inr (hcode _ hkind rfl)
  · exact Or.inl rfl
  · exact Or.inr (plainCommentEntries_isHeaded depth fun _ hl => hl)

/-! ## Nodes -/

theorem blockLine_isLineAt (depth : Nat) (isOutput : Bool) {code : Text} (h : '\n' ∉ code) :
    (Entry.mk depth (blockLine isOutput code)).IsLineAt depth := by
  rw [blockLine]
  split
  · refine isLineAt_cons depth (by decide) ?_
    intro hmem
    rcases List.mem_append.1 hmem with hmem | hmem
    · exact absurd hmem (by decide)
    · exact h hmem
  · exact codeLine_isLineAt depth h

/-- An element writes its own line and then, one level deeper, what it encloses. -/
theorem elementEntries_isHeaded (depth : Nat) {name : Text} {attributes : List Attribute}
    {children : List Node} (h : Element.FitsLine ⟨name, attributes⟩)
    (hchildren : IsLaidOut (depth + 1) (nodesEntries (depth + 1) children)) :
    IsHeaded depth (nodeEntries depth (.element name attributes children)) := by
  have hbare : (Entry.mk depth (Element.opening ⟨name, attributes⟩)).IsLineAt depth := by
    simpa using opening_isLineAt depth h (List.not_mem_nil (a := '\n'))
  simp only [nodeEntries]
  split
  · exact isHeaded_singleton hbare
  · split
    · next content _ =>
      obtain ⟨head, rest, heq, hhead, hrest⟩ := inlineEntries_eq_cons depth h content
      rw [heq]
      exact isHeaded_cons hhead (isLaidOut_of_isLineAt hrest)
    · exact isHeaded_cons hbare hchildren

mutual

/-- The lines of a node are laid out at its depth. -/
theorem nodeEntries_isLaidOut (depth : Nat) :
    (node : Node) → node.FitsLines → IsLaidOut depth (nodeEntries depth node)
  | .text content, _ => by
    rw [nodeEntries]
    exact isLaidOut_of_isLineAt (textEntries_isLineAt depth content)
  | .comment content, h => by
    rw [nodeEntries]
    rcases commentEntries_isHeaded depth h with hnil | hheaded
    · rw [hnil]
      exact isLaidOut_nil depth
    · exact hheaded.isLaidOut
  | .block isOutput code children, h => by
    rw [nodeEntries]
    split
    · exact nodesEntries_isLaidOut depth children h.2
    · have hline := blockLine_isLineAt depth isOutput h.1
      exact (isHeaded_cons hline (nodesEntries_isLaidOut (depth + 1) children h.2)).isLaidOut
  | .element name attributes children, h =>
    (elementEntries_isHeaded depth h.1 (nodesEntries_isLaidOut (depth + 1) children h.2)).isLaidOut

/-- The lines of nodes side by side are laid out at their depth. -/
theorem nodesEntries_isLaidOut (depth : Nat) :
    (nodes : List Node) → nodesFitLines nodes → IsLaidOut depth (nodesEntries depth nodes)
  | [], _ => isLaidOut_nil depth
  | node :: nodes, h => by
    rw [nodesEntries]
    exact (nodeEntries_isLaidOut depth node h.1).append (nodesEntries_isLaidOut depth nodes h.2)

end

end SlimTemplate.Writer
