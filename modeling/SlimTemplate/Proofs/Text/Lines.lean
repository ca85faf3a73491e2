import SlimTemplate.Proofs.Text.Blank
import SlimTemplate.Text.Lines

/-!
# Lines and words written and read

Lines without line feeds, each ended by one, are read back as they are, up to a carriage return
at their ends. The visible lines of a text and its words are never blank and hold no line feed.

## Main statements

* `Text.lines_unlines`: written lines are read back.
* `Text.mem_visibleLines`: a visible line is trimmed, not blank, and on one line.
* `Text.collapse_eq_cons`, `Text.lineFeed_not_mem_collapse`: a collapsed text is on one line, and
  begins with a character that is not blank unless the text was blank.
-/

namespace SlimTemplate.Text

/-! ## Parts between line feeds -/

theorem splitOn_ne_nil (separator : Char) (text : Text) : splitOn separator text ≠ [] := by
  cases text with
  | nil => simp [splitOn]
  | cons c text =>
    rw [splitOn]
    split
    · simp
    · split <;> simp

/-- What stands before any separator goes to the first part. -/
theorem splitOn_append {separator : Char} {before text part : Text} {more : List Text}
    (h : separator ∉ before) (hsplit : splitOn separator text = part :: more) :
    splitOn separator (before ++ text) = (before ++ part) :: more := by
  induction before with
  | nil => exact hsplit
  | cons c before ih =>
    obtain ⟨hc, hbefore⟩ := not_or.1 (mt List.mem_cons.2 h)
    rw [List.cons_append, splitOn, ih hbefore, if_neg (Ne.symm hc)]
    rfl

theorem splitOn_append_cons {separator : Char} {part : Text} (h : separator ∉ part)
    (text : Text) :
    splitOn separator (part ++ separator :: text) = part :: splitOn separator text := by
  have hsplit : splitOn separator (separator :: text) = [] :: splitOn separator text := by
    rw [splitOn, if_pos rfl]
  rw [splitOn_append h hsplit, List.append_nil]

theorem splitOn_of_not_mem {separator : Char} {text : Text} (h : separator ∉ text) :
    splitOn separator text = [text] := by
  have hsplit := splitOn_append h (splitOn.eq_1 separator)
  rwa [List.append_nil] at hsplit

/-- The last part of a text goes on in the first part of what is behind it. -/
theorem splitOn_append_of_concat {separator : Char} {a b last first : Text} {start more : List Text}
    (ha : splitOn separator a = start ++ [last]) (hb : splitOn separator b = first :: more) :
    splitOn separator (a ++ b) = start ++ (last ++ first) :: more := by
  induction a generalizing start last with
  | nil =>
    rcases List.append_eq_singleton_iff.1 ha.symm with ⟨rfl, hlast⟩ | ⟨-, hlast⟩
    · obtain rfl := List.singleton_inj.1 hlast
      exact hb
    · exact absurd hlast (List.cons_ne_nil last [])
  | cons c a ih =>
    rw [splitOn] at ha
    rw [List.cons_append, splitOn]
    by_cases hc : c = separator
    · rw [if_pos hc] at ha ⊢
      cases start with
      | nil => exact absurd (List.cons.inj ha).2 (splitOn_ne_nil separator a)
      | cons part start =>
        obtain ⟨rfl, htail⟩ := List.cons.inj ha
        rw [ih htail]
        rfl
    · rw [if_neg hc] at ha ⊢
      obtain ⟨part, parts, hsplit⟩ := List.exists_cons_of_ne_nil (splitOn_ne_nil separator a)
      rw [hsplit] at ha
      cases start with
      | nil =>
        obtain ⟨rfl, rfl⟩ := List.cons.inj ha
        rw [ih (show _ = [] ++ [part] from hsplit)]
        rfl
      | cons other start =>
        obtain ⟨rfl, rfl⟩ := List.cons.inj ha
        rw [ih (show _ = part :: start ++ [last] from hsplit)]
        rfl

/-- The first part begins as the text does, unless it is empty. -/
theorem mem_head?_of_splitOn {separator : Char} {text part : Text} {more : List Text}
    (h : splitOn separator text = part :: more) : ∀ c ∈ part.head?, c ∈ text.head? := by
  intro c hc
  cases text with
  | nil =>
    obtain ⟨rfl, -⟩ := List.cons.inj h
    cases hc
  | cons d text =>
    obtain ⟨first, others, hsplit⟩ := List.exists_cons_of_ne_nil (splitOn_ne_nil separator text)
    rw [splitOn, hsplit] at h
    split at h
    · obtain ⟨rfl, -⟩ := List.cons.inj h
      cases hc
    · obtain ⟨rfl, -⟩ := List.cons.inj h
      exact hc

theorem not_mem_of_mem_splitOn {separator : Char} {part text : Text}
    (h : part ∈ splitOn separator text) : separator ∉ part := by
  induction text generalizing part with
  | nil =>
    rw [splitOn, List.mem_singleton] at h
    simp [h]
  | cons c text ih =>
    rw [splitOn] at h
    by_cases hc : c = separator
    · rw [if_pos hc] at h
      rcases List.mem_cons.1 h with rfl | h
      · simp
      · exact ih h
    · rw [if_neg hc] at h
      cases hs : splitOn separator text with
      | nil =>
        rw [hs, List.mem_singleton] at h
        simp [h, Ne.symm hc]
      | cons first more =>
        rw [hs] at h ih
        rcases List.mem_cons.1 h with rfl | h
        · exact mt List.mem_cons.1 (not_or.2 ⟨Ne.symm hc, ih List.mem_cons_self⟩)
        · exact ih (List.mem_cons_of_mem _ h)

/-! ## Lines joined -/

theorem joinWith_cons_cons (separator part next : Text) (more : List Text) :
    joinWith separator (part :: next :: more) =
      part ++ separator ++ joinWith separator (next :: more) :=
  rfl

theorem unlines_cons {ls : List Text} (h : ls ≠ []) (l : Text) :
    unlines (l :: ls) = l ++ '\n' :: unlines ls := by
  obtain ⟨next, more, rfl⟩ := List.exists_cons_of_ne_nil h
  rw [unlines, joinWith_cons_cons, List.append_assoc]
  rfl

theorem unlines_append {a b : List Text} (ha : a ≠ []) (hb : b ≠ []) :
    unlines (a ++ b) = unlines a ++ '\n' :: unlines b := by
  induction a with
  | nil => exact absurd rfl ha
  | cons first a ih =>
    rw [List.cons_append, unlines_cons (List.append_ne_nil_of_right_ne_nil a hb)]
    cases a with
    | nil => rfl
    | cons second a =>
      rw [ih (List.cons_ne_nil second a), unlines_cons (List.cons_ne_nil second a)]
      simp

/-- The parts between line feeds make up the text. -/
theorem unlines_splitOn (text : Text) : unlines (splitOn '\n' text) = text := by
  induction text with
  | nil => rfl
  | cons c text ih =>
    obtain ⟨first, more, hsplit⟩ := List.exists_cons_of_ne_nil (splitOn_ne_nil '\n' text)
    rw [splitOn, hsplit]
    rw [hsplit] at ih
    split
    · next hc =>
      rw [hc, unlines_cons (List.cons_ne_nil first more), ih]
      rfl
    · cases more with
      | nil => exact congrArg (c :: ·) ih
      | cons second more => exact congrArg (c :: ·) ih

theorem mem_unlines {ls : List Text} {l : Text} {c : Char} (hl : l ∈ ls) (hc : c ∈ l) :
    c ∈ unlines ls := by
  induction ls with
  | nil => cases hl
  | cons first ls ih =>
    cases ls with
    | nil => exact List.mem_singleton.1 hl ▸ hc
    | cons second ls =>
      rw [unlines_cons (List.cons_ne_nil second ls)]
      rcases List.mem_cons.1 hl with rfl | hl
      · exact List.mem_append_left _ hc
      · exact List.mem_append_right _ (List.mem_cons_of_mem _ (ih hl))

theorem splitOn_unlines {ls : List Text} (hne : ls ≠ []) (h : ∀ l ∈ ls, '\n' ∉ l) :
    splitOn '\n' (unlines ls ++ ['\n']) = ls ++ [[]] := by
  induction ls with
  | nil => exact absurd rfl hne
  | cons l ls ih =>
    obtain ⟨hl, hls⟩ := List.forall_mem_cons.1 h
    cases ls with
    | nil =>
      rw [unlines, joinWith, splitOn_append_cons hl]
      rfl
    | cons l' ls =>
      rw [unlines_cons (List.cons_ne_nil l' ls), List.append_assoc, List.cons_append,
        splitOn_append_cons hl, ih (List.cons_ne_nil l' ls) hls]
      rfl

theorem endedLines_append_nil (ls : List Text) :
    endedLines (ls ++ [[]]) = ls.map dropFinalReturn := by
  induction ls with
  | nil => rfl
  | cons l ls ih =>
    cases ls with
    | nil => rfl
    | cons l' ls =>
      have hcons : endedLines (l :: (l' :: ls ++ [[]])) =
          dropFinalReturn l :: endedLines (l' :: ls ++ [[]]) := rfl
      rw [List.cons_append, hcons, ih]
      rfl

/-- Lines without line feeds are read back, but for a carriage return at the end of each. -/
theorem lines_unlines {ls : List Text} (hne : ls ≠ []) (h : ∀ l ∈ ls, '\n' ∉ l) :
    lines (unlines ls ++ ['\n']) = ls.map dropFinalReturn := by
  rw [lines, splitOn_unlines hne h, endedLines_append_nil]

theorem splitOn_unlines_of_ne_nil {ls : List Text} (hne : ls ≠ []) (h : ∀ l ∈ ls, '\n' ∉ l) :
    splitOn '\n' (unlines ls) = ls := by
  induction ls with
  | nil => exact absurd rfl hne
  | cons l ls ih =>
    obtain ⟨hl, hls⟩ := List.forall_mem_cons.1 h
    cases ls with
    | nil => exact splitOn_of_not_mem hl
    | cons l' ls =>
      rw [unlines_cons (List.cons_ne_nil l' ls), splitOn_append_cons hl,
        ih (List.cons_ne_nil l' ls) hls]

/-- A last line that is not empty and ends in no carriage return needs no line ending. -/
theorem endedLines_eq_map {ls : List Text}
    (h : ∀ last, ls.getLast? = some last → last ≠ [] ∧ dropFinalReturn last = last) :
    endedLines ls = ls.map dropFinalReturn := by
  induction ls with
  | nil => rfl
  | cons l ls ih =>
    cases ls with
    | nil =>
      obtain ⟨hne, hreturn⟩ := h l rfl
      rw [endedLines, if_neg (by simpa using hne), List.map_singleton, hreturn]
    | cons l' ls => exact congrArg (dropFinalReturn l :: ·) (ih h)

/-- Lines whose last one needs no line ending are read back without it. -/
theorem lines_unlines_unended {ls : List Text} (hne : ls ≠ []) (h : ∀ l ∈ ls, '\n' ∉ l)
    (hlast : ∀ last, ls.getLast? = some last → last ≠ [] ∧ dropFinalReturn last = last) :
    lines (unlines ls) = ls.map dropFinalReturn := by
  rw [lines, splitOn_unlines_of_ne_nil hne h, endedLines_eq_map hlast]

/-! ## Carriage returns at the end of a line -/

/-- A line is what remains of it and a carriage return, or it is unchanged. -/
theorem dropFinalReturn_cases (line : Text) :
    dropFinalReturn line = line ∨ line = dropFinalReturn line ++ ['\r'] := by
  fun_induction dropFinalReturn line with
  | case1 => exact Or.inl rfl
  | case2 => exact Or.inr rfl
  | case3 c line _ ih =>
    rcases ih with ih | ih
    · exact Or.inl (by rw [ih])
    · exact Or.inr (by rw [List.cons_append, ← ih])

theorem dropFinalReturn_of_not_mem {line : Text} (h : '\r' ∉ line) :
    dropFinalReturn line = line := by
  rcases dropFinalReturn_cases line with hd | hd
  · exact hd
  · exact absurd (by rw [hd]; simp) h

theorem mem_of_mem_dropFinalReturn {c : Char} {line : Text} (h : c ∈ dropFinalReturn line) :
    c ∈ line := by
  rcases dropFinalReturn_cases line with hd | hd
  · rwa [hd] at h
  · rw [hd]
    exact List.mem_append_left _ h

theorem isBlank_of_mem_return : ∀ c ∈ ['\r'], isBlank c = true := by
  intro c hc
  rw [List.mem_singleton.1 hc]
  decide

/-- The carriage return of a line ending does not show after trimming. -/
theorem trim_dropFinalReturn (line : Text) : trim (dropFinalReturn line) = trim line := by
  rcases dropFinalReturn_cases line with hd | hd
  · rw [hd]
  · conv_rhs => rw [hd]
    exact (trim_append_of_isBlank_right isBlank_of_mem_return _).symm

theorem mem_endedLines {l : Text} {ls : List Text} (h : l ∈ endedLines ls) :
    ∃ part ∈ ls, l = part ∨ l = dropFinalReturn part := by
  fun_induction endedLines ls with
  | case1 => simp at h
  | case2 => simp at h
  | case3 last => exact ⟨last, List.mem_cons_self, Or.inl (List.mem_singleton.1 h)⟩
  | case4 line more _ ih =>
    rcases List.mem_cons.1 h with rfl | h
    · exact ⟨line, List.mem_cons_self, Or.inr rfl⟩
    · obtain ⟨part, hpart, hl⟩ := ih h
      exact ⟨part, List.mem_cons_of_mem _ hpart, hl⟩

/-- A line of a text holds no line feed. -/
theorem lineFeed_not_mem_of_mem_lines {l text : Text} (h : l ∈ lines text) : '\n' ∉ l := by
  obtain ⟨part, hpart, rfl | rfl⟩ := mem_endedLines h
  · exact not_mem_of_mem_splitOn hpart
  · exact fun hl => not_mem_of_mem_splitOn hpart (mem_of_mem_dropFinalReturn hl)

/-- Lines without the characters of a line ending are read back as they are. -/
theorem lines_unlines_of_not_mem {ls : List Text} (hne : ls ≠ [])
    (h : ∀ l ∈ ls, '\n' ∉ l ∧ '\r' ∉ l) : lines (unlines ls ++ ['\n']) = ls := by
  rw [lines_unlines hne fun l hl => (h l hl).1]
  calc ls.map dropFinalReturn = ls.map id :=
        List.map_congr_left fun l hl => dropFinalReturn_of_not_mem (h l hl).2
    _ = ls := List.map_id ls

/-- Every carriage return stands directly before a line feed. -/
def ReturnsEndLines : Text → Prop
  | [] => True
  | c :: text => (c = '\r' → text.head? = some '\n') ∧ ReturnsEndLines text

instance decidableReturnsEndLines : (text : Text) → Decidable (ReturnsEndLines text)
  | [] => inferInstanceAs (Decidable True)
  | c :: text =>
    have := decidableReturnsEndLines text
    inferInstanceAs (Decidable ((c = '\r' → text.head? = some '\n') ∧ ReturnsEndLines text))

theorem dropFinalReturn_cons {c : Char} (hc : c ≠ '\r') (line : Text) :
    dropFinalReturn (c :: line) = c :: dropFinalReturn line := by
  rw [dropFinalReturn]
  intro h
  exact absurd h hc

/-- Where returns only end lines, no line holds one. -/
theorem return_not_mem_of_mem_lines {text l : Text} (h : ReturnsEndLines text)
    (hl : l ∈ lines text) : '\r' ∉ l := by
  rw [lines] at hl
  induction text generalizing l with
  | nil => simp [splitOn, endedLines] at hl
  | cons c text ih =>
    obtain ⟨hc, htext⟩ := h
    obtain ⟨first, more, hsplit⟩ := List.exists_cons_of_ne_nil (splitOn_ne_nil '\n' text)
    -- A return is the last character of its part, and that part is not the last one.
    have hreturn : c = '\r' → first = [] ∧ more ≠ [] := by
      intro hreturn
      cases text with
      | nil => exact absurd (hc hreturn) (by simp)
      | cons d text =>
        obtain rfl : d = '\n' := Option.some.inj (hc hreturn)
        rw [splitOn, if_pos rfl, List.cons.injEq] at hsplit
        rw [← hsplit.1, ← hsplit.2]
        exact ⟨rfl, splitOn_ne_nil '\n' text⟩
    rw [splitOn, hsplit] at hl
    rw [hsplit] at ih
    by_cases hfeed : c = '\n'
    · rw [if_pos hfeed] at hl
      rcases List.mem_cons.1 hl with rfl | hl
      · exact List.not_mem_nil
      · exact ih htext hl
    rw [if_neg hfeed] at hl
    cases more with
    | nil =>
      have hlast : l = c :: first := by simpa [endedLines] using hl
      have hfirst : '\r' ∉ first := by
        cases first with
        | nil => exact List.not_mem_nil
        | cons d first => exact ih htext List.mem_cons_self
      rw [hlast, List.mem_cons, not_or]
      exact ⟨fun hr => (hreturn hr.symm).2 rfl, hfirst⟩
    | cons next more =>
      have hfirst : '\r' ∉ dropFinalReturn first := ih htext List.mem_cons_self
      rcases List.mem_cons.1 hl with rfl | hl
      · by_cases hr : c = '\r'
        · rw [hr, (hreturn hr).1]
          exact List.not_mem_nil
        · rw [dropFinalReturn_cons hr, List.mem_cons, not_or]
          exact ⟨Ne.symm hr, hfirst⟩
      · exact ih htext (List.mem_cons_of_mem _ hl)

/-! ## Visible lines and words -/

/-- A visible line is a trimmed line that is not blank. -/
theorem mem_visibleLines {l text : Text} (h : l ∈ visibleLines text) :
    l ≠ [] ∧ trim l = l ∧ '\n' ∉ l := by
  rw [visibleLines, List.mem_filter, List.mem_map] at h
  obtain ⟨⟨line, hline, rfl⟩, hne⟩ := h
  refine ⟨by simpa using hne, trim_trim line, ?_⟩
  intro hl
  exact lineFeed_not_mem_of_mem_lines hline (mem_of_mem_trim hl)

theorem mem_wordsFrom {w word text : Text} (hword : ∀ c ∈ word, isBlank c = false)
    (h : w ∈ wordsFrom word text) : w ≠ [] ∧ ∀ c ∈ w, isBlank c = false := by
  have hrev : ∀ c ∈ word.reverse, isBlank c = false := fun c hc => hword c (List.mem_reverse.1 hc)
  fun_induction wordsFrom word text with
  | case1 word hempty => simp at h
  | case2 word hempty =>
    obtain rfl := List.mem_singleton.1 h
    exact ⟨by simpa using hempty, hrev⟩
  | case3 word c text hc hempty ih => exact ih (by simp) h (by simp)
  | case4 word c text hc hempty ih =>
    rcases List.mem_cons.1 h with rfl | h
    · exact ⟨by simpa using hempty, hrev⟩
    · exact ih (by simp) h (by simp)
  | case5 word c text hc ih =>
    have hcons : ∀ d ∈ c :: word, isBlank d = false := by
      intro d hd
      rcases List.mem_cons.1 hd with rfl | hd
      · simpa using hc
      · exact hword d hd
    exact ih hcons h fun d hd => hcons d (List.mem_reverse.1 hd)

/-- A word is not empty and holds no blank. -/
theorem mem_words {w text : Text} (h : w ∈ words text) : w ≠ [] ∧ ∀ c ∈ w, isBlank c = false :=
  mem_wordsFrom (by simp) h

theorem wordsFrom_eq_nil {word text : Text} (h : wordsFrom word text = []) :
    word = [] ∧ ∀ c ∈ text, isBlank c = true := by
  fun_induction wordsFrom word text with
  | case1 word hempty => exact ⟨by simpa using hempty, by simp⟩
  | case2 => simp at h
  | case3 word c text hc hempty ih =>
    refine ⟨by simpa using hempty, ?_⟩
    intro d hd
    rcases List.mem_cons.1 hd with rfl | hd
    · exact hc
    · exact (ih h).2 d hd
  | case4 => simp at h
  | case5 word c text hc ih => exact absurd (ih h).1 (by simp)

theorem mem_joinWith {c : Char} {separator : Text} {parts : List Text}
    (h : c ∈ joinWith separator parts) : c ∈ separator ∨ ∃ part ∈ parts, c ∈ part := by
  induction parts with
  | nil => simp [joinWith] at h
  | cons part more ih =>
    cases more with
    | nil => exact Or.inr ⟨part, List.mem_cons_self, h⟩
    | cons next more =>
      rw [joinWith_cons_cons, List.append_assoc, List.mem_append, List.mem_append] at h
      rcases h with h | h | h
      · exact Or.inr ⟨part, List.mem_cons_self, h⟩
      · exact Or.inl h
      · rcases ih h with h | ⟨p, hp, hc⟩
        · exact Or.inl h
        · exact Or.inr ⟨p, List.mem_cons_of_mem _ hp, hc⟩

/-- A collapsed text holds no blanks but spaces. -/
theorem eq_space_of_mem_collapse {c : Char} {text : Text} (h : c ∈ collapse text)
    (hc : isBlank c = true) : c = ' ' := by
  rcases mem_joinWith h with h | ⟨w, hw, hcw⟩
  · simpa using h
  · rw [(mem_words hw).2 c hcw] at hc
    simp at hc

theorem mem_of_mem_wordsFrom {w word text : Text} {c : Char} (h : w ∈ wordsFrom word text)
    (hc : c ∈ w) : c ∈ word ∨ c ∈ text := by
  fun_induction wordsFrom word text with
  | case1 word hempty => simp at h
  | case2 word hempty =>
    obtain rfl := List.mem_singleton.1 h
    exact Or.inl (List.mem_reverse.1 hc)
  | case3 word d text hd hempty ih =>
    rcases ih h with hmem | hmem
    · simp at hmem
    · exact Or.inr (List.mem_cons_of_mem _ hmem)
  | case4 word d text hd hempty ih =>
    rcases List.mem_cons.1 h with rfl | h
    · exact Or.inl (List.mem_reverse.1 hc)
    · rcases ih h with hmem | hmem
      · simp at hmem
      · exact Or.inr (List.mem_cons_of_mem _ hmem)
  | case5 word d text hd ih =>
    rcases ih h with hmem | hmem
    · rcases List.mem_cons.1 hmem with rfl | hmem
      · exact Or.inr List.mem_cons_self
      · exact Or.inl hmem
    · exact Or.inr (List.mem_cons_of_mem _ hmem)

/-- Collapsing leaves characters out and adds spaces. -/
theorem mem_of_mem_collapse {c : Char} {text : Text} (h : c ∈ collapse text) :
    c = ' ' ∨ c ∈ text := by
  rcases mem_joinWith h with h | ⟨w, hw, hcw⟩
  · exact Or.inl (by simpa using h)
  · rcases mem_of_mem_wordsFrom hw hcw with hmem | hmem
    · simp at hmem
    · exact Or.inr hmem

theorem lineFeed_not_mem_collapse (text : Text) : '\n' ∉ collapse text := by
  intro h
  exact absurd (eq_space_of_mem_collapse h (by decide)) (by decide)

/-- A collapsed text begins with a character that is not blank, unless the text was blank. -/
theorem collapse_eq_cons {text : Text} (h : trim text ≠ []) :
    ∃ c rest, collapse text = c :: rest ∧ isBlank c = false := by
  rw [collapse]
  cases hw : words text with
  | nil => exact absurd (trim_eq_nil_iff.2 (wordsFrom_eq_nil hw).2) h
  | cons w more =>
    obtain ⟨hne, hblank⟩ := mem_words (hw ▸ List.mem_cons_self)
    obtain ⟨c, rest, rfl⟩ := List.exists_cons_of_ne_nil hne
    have hc := hblank c List.mem_cons_self
    cases more with
    | nil => exact ⟨c, rest, rfl, hc⟩
    | cons next more =>
      rw [joinWith_cons_cons]
      exact ⟨c, _, rfl, hc⟩

end SlimTemplate.Text
