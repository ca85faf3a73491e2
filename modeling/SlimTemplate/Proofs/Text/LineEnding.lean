import SlimTemplate.Proofs.Text.Lines
import SlimTemplate.Proofs.Text.Replace

/-!
# Line endings

A line may end in a carriage return and a line feed or in a line feed alone, and the last line may
have no ending. When the lines of a text are written out again each of them is ended by a line feed,
so the carriage returns of the endings are gone, and a missing ending is there.

## Main definitions

* `Text.withLineFeeds`: a text whose lines end in line feeds alone.
* `Text.endLast`: a text whose last line is ended.

## Main statements

* `Text.unlines_lines`: what becomes of a text whose lines are written out.
* `Text.endLast_withLineFeeds_eq_iff`: the texts to which nothing else happens.
-/

namespace SlimTemplate.Text

variable {text : Text}

/-- The text without the carriage returns of line endings. -/
def withLineFeeds (text : Text) : Text :=
  replaceAll ['\r', '\n'] ['\n'] text

/-- The text with a line feed at its end, which is added if there is none. -/
def endLast (text : Text) : Text :=
  if text.getLast? = some '\n' then text else text ++ ['\n']

theorem endLast_append (h : text ≠ []) (before : Text) :
    endLast (before ++ text) = before ++ endLast text := by
  rw [endLast, endLast, List.getLast?_append_of_ne_nil before h]
  split
  · rfl
  · exact List.append_assoc before text _

theorem endLast_of_not_mem (h : '\n' ∉ text) : endLast text = text ++ ['\n'] :=
  if_neg fun hlast => h (List.mem_of_getLast? hlast)

/-! ## Lines written out -/

theorem withLineFeeds_of_not_mem (h : '\n' ∉ text) : withLineFeeds text = text := by
  refine replaceAll_of_not_isInfix (fun hfound => h ?_) _
  exact hfound.subset (List.mem_cons_of_mem _ List.mem_cons_self)

/-- A line loses the carriage return of its ending. -/
theorem withLineFeeds_append_cons {line : Text} (h : '\n' ∉ line) (rest : Text) :
    withLineFeeds (line ++ '\n' :: rest) = dropFinalReturn line ++ '\n' :: withLineFeeds rest := by
  fun_induction dropFinalReturn line with
  | case1 => exact replaceAll_cons (by simp [List.cons_prefix_cons]) _
  | case2 => exact replaceAll_append (List.cons_ne_nil _ _) _ rest
  | case3 c line hne ih =>
    have hline : '\n' ∉ line := fun hmem => h (List.mem_cons_of_mem c hmem)
    -- A carriage return before another character of the line belongs to no ending.
    have hskip : ¬['\r', '\n'] <+: c :: (line ++ '\n' :: rest) := by
      rw [List.cons_prefix_cons]
      rintro ⟨rfl, hfeed⟩
      cases line with
      | nil => exact hne rfl rfl
      | cons d line =>
        rw [List.cons_append, List.cons_prefix_cons] at hfeed
        exact hline (hfeed.1 ▸ List.mem_cons_self)
    rw [List.cons_append, List.cons_append, withLineFeeds, replaceAll_cons hskip]
    exact congrArg (c :: ·) (ih hline)

theorem withLineFeeds_ne_nil (h : text ≠ []) : withLineFeeds text ≠ [] := by
  obtain ⟨c, text, rfl⟩ := List.exists_cons_of_ne_nil h
  rw [withLineFeeds, replaceAll, replaceFrom]
  split
  · exact List.cons_ne_nil _ _
  · exact List.cons_ne_nil _ _

/-- Parts of which the last one is no line are a single empty part. -/
theorem endedLines_cons_ne_nil {part : Text} {more : List Text} (h : part :: more ≠ [[]]) :
    endedLines (part :: more) ≠ [] := by
  cases more with
  | nil =>
    rw [endedLines, if_neg (by simpa using h)]
    exact List.cons_ne_nil part []
  | cons next more => exact List.cons_ne_nil _ _

theorem unlines_cons_ne_nil {part : Text} {more : List Text} (h : part :: more ≠ [[]]) :
    unlines (part :: more) ≠ [] := by
  cases more with
  | nil => exact fun hnil => h (congrArg ([·]) hnil)
  | cons next more =>
    rw [unlines_cons (List.cons_ne_nil next more)]
    exact List.append_ne_nil_of_right_ne_nil _ (List.cons_ne_nil _ _)

theorem unlines_endedLines {part : Text} {more : List Text} (h : ∀ p ∈ part :: more, '\n' ∉ p) :
    unlines (endedLines (part :: more)) ++ ['\n'] =
      endLast (withLineFeeds (unlines (part :: more))) := by
  induction more generalizing part with
  | nil =>
    have hpart : '\n' ∉ part := h part List.mem_cons_self
    have hended : unlines (endedLines [part]) = part := by
      cases part <;> rfl
    rw [hended, show unlines [part] = part from rfl, withLineFeeds_of_not_mem hpart,
      endLast_of_not_mem hpart]
  | cons next more ih =>
    obtain ⟨hpart, hmore⟩ := List.forall_mem_cons.1 h
    rw [unlines_cons (List.cons_ne_nil next more), withLineFeeds_append_cons hpart,
      show endedLines (part :: next :: more) = dropFinalReturn part :: endedLines (next :: more)
        from rfl]
    by_cases hlast : next :: more = [[]]
    · -- The line feed behind the line ends the text.
      rw [hlast]
      exact (if_pos (by simp [show unlines [[]] = [] from rfl, withLineFeeds, replaceAll,
        replaceFrom])).symm
    · have hrest := withLineFeeds_ne_nil (unlines_cons_ne_nil hlast)
      have hend := endLast_append hrest (dropFinalReturn part ++ ['\n'])
      rw [List.append_assoc, List.append_assoc, List.singleton_append,
        List.singleton_append] at hend
      rw [unlines_cons (endedLines_cons_ne_nil hlast), List.append_assoc, List.cons_append,
        ih hmore, hend]

/-- The lines of a text written out are the text, with line feeds alone as line endings and one at
the end. -/
theorem unlines_lines (text : Text) :
    unlines (lines text) ++ ['\n'] = endLast (withLineFeeds text) := by
  obtain ⟨part, more, hsplit⟩ := List.exists_cons_of_ne_nil (splitOn_ne_nil '\n' text)
  have hfeed : ∀ p ∈ part :: more, '\n' ∉ p := fun p hp => not_mem_of_mem_splitOn (hsplit ▸ hp)
  rw [lines, hsplit, unlines_endedLines hfeed, ← hsplit, unlines_splitOn]

/-! ## Texts that keep their line endings -/

theorem count_return_endLast (text : Text) : (endLast text).count '\r' = text.count '\r' := by
  rw [endLast]
  split
  · rfl
  · simp

/-- Carriage returns of line endings are lost, and without them the text stays as it is. -/
theorem withLineFeeds_cases (text : Text) :
    (withLineFeeds text = text ∧ ¬['\r', '\n'] <:+: text) ∨
      (withLineFeeds text).count '\r' < text.count '\r' := by
  have hne : ['\r', '\n'] ≠ [] := List.cons_ne_nil _ _
  induction text using replaceInduction hne with
  | nil => exact .inl ⟨rfl, by simp⟩
  | found rest ih =>
    have hle : (withLineFeeds rest).count '\r' ≤ rest.count '\r' := by
      rcases ih with ⟨heq, -⟩ | hlt
      · rw [heq]
      · exact hlt.le
    right
    rw [withLineFeeds, replaceAll_append hne, ← withLineFeeds]
    simpa using Nat.lt_succ_of_le hle
  | skipped c text hskip ih =>
    rw [withLineFeeds, replaceAll_cons hskip, ← withLineFeeds]
    rcases ih with ⟨heq, hnone⟩ | hlt
    · exact .inl ⟨by rw [heq], fun h => (List.infix_cons_iff.1 h).elim hskip hnone⟩
    · right
      rw [List.count_cons, List.count_cons]
      omega

/-- Only an ending is added exactly if no line ends in a carriage return and a line feed. -/
theorem endLast_withLineFeeds_eq_iff :
    endLast (withLineFeeds text) = endLast text ↔ ¬['\r', '\n'] <:+: text := by
  constructor
  · intro heq
    rcases withLineFeeds_cases text with ⟨-, hnone⟩ | hlt
    · exact hnone
    · have hcount := congrArg (List.count '\r') heq
      rw [count_return_endLast, count_return_endLast] at hcount
      omega
  · intro hnone
    rw [withLineFeeds, replaceAll_of_not_isInfix hnone]

end SlimTemplate.Text
