import SlimTemplate.Proofs.Text.Blank
import SlimTemplate.Proofs.Text.Lines

/-!
# The words of a text

A blank ends a word and belongs to none, so the words of a text are those of its parts between
blanks. Trimming, collapsing and breaking a text into lines leave its words as they are.

## Main statements

* `Text.words_append_cons`: the words of two texts with a blank between them.
* `Text.words_trim`, `Text.words_collapse`: trimming and collapsing keep the words.
* `Text.flatMap_words_visibleLines`: the visible lines of a text keep its words.
-/

namespace SlimTemplate.Text

variable {c : Char}

theorem wordsFrom_append_cons (hc : isBlank c = true) (word a b : Text) :
    wordsFrom word (a ++ c :: b) = wordsFrom word a ++ words b := by
  -- The word that is read is the same on both sides until the blank ends it.
  fun_induction wordsFrom word a with
  | case1 word hempty => rw [List.nil_append, wordsFrom, if_pos hc, if_pos hempty]; rfl
  | case2 word hempty => rw [List.nil_append, wordsFrom, if_pos hc, if_neg hempty]; rfl
  | case3 word d a hd hempty ih => rw [List.cons_append, wordsFrom, if_pos hd, if_pos hempty, ih]
  | case4 word d a hd hempty ih =>
    rw [List.cons_append, wordsFrom, if_pos hd, if_neg hempty, ih, List.cons_append]
  | case5 word d a hd ih => rw [List.cons_append, wordsFrom, if_neg hd, ih]

/-- A blank separates words. -/
theorem words_append_cons (hc : isBlank c = true) (a b : Text) :
    words (a ++ c :: b) = words a ++ words b :=
  wordsFrom_append_cons hc [] a b

theorem words_cons (hc : isBlank c = true) (text : Text) : words (c :: text) = words text :=
  words_append_cons hc [] text

/-- Blanks before a text belong to no word. -/
theorem words_append_left {blanks : Text} (h : ∀ c ∈ blanks, isBlank c = true) (text : Text) :
    words (blanks ++ text) = words text := by
  induction blanks with
  | nil => rfl
  | cons c blanks ih =>
    obtain ⟨hc, hblanks⟩ := List.forall_mem_cons.1 h
    rw [List.cons_append, words_cons hc, ih hblanks]

theorem words_eq_nil {blanks : Text} (h : ∀ c ∈ blanks, isBlank c = true) : words blanks = [] := by
  rw [← List.append_nil blanks, words_append_left h]
  rfl

/-- Blanks behind a text belong to no word. -/
theorem words_append_right {blanks : Text} (h : ∀ c ∈ blanks, isBlank c = true) (text : Text) :
    words (text ++ blanks) = words text := by
  cases blanks with
  | nil => rw [List.append_nil]
  | cons c blanks =>
    obtain ⟨hc, hblanks⟩ := List.forall_mem_cons.1 h
    rw [words_append_cons hc, words_eq_nil hblanks, List.append_nil]

@[simp]
theorem words_trimStart (text : Text) : words (trimStart text) = words text := by
  conv_rhs => rw [← List.takeWhile_append_dropWhile (p := isBlank) (l := text)]
  exact (words_append_left (fun _ => List.mem_takeWhile_imp) _).symm

@[simp]
theorem words_trimEnd (text : Text) : words (trimEnd text) = words text := by
  rw [trimEnd, dropEndWhile_eq_rdropWhile]
  conv_rhs => rw [← List.rdropWhile_append_rtakeWhile (p := isBlank) (l := text)]
  exact (words_append_right (fun _ => List.mem_rtakeWhile_imp) _).symm

/-- Trimming keeps the words. -/
@[simp]
theorem words_trim (text : Text) : words (trim text) = words text := by
  rw [trim, words_trimEnd, words_trimStart]

@[simp]
theorem words_dropFinalReturn (line : Text) : words (dropFinalReturn line) = words line := by
  rw [← words_trim, trim_dropFinalReturn, words_trim]

/-! ## Words put together -/

theorem wordsFrom_of_not_isBlank {text : Text} (h : ∀ c ∈ text, isBlank c = false)
    {word : Text} (hne : word ≠ [] ∨ text ≠ []) :
    wordsFrom word text = [word.reverse ++ text] := by
  induction text generalizing word with
  | nil => rw [wordsFrom, if_neg (by simpa using hne), List.append_nil]
  | cons c text ih =>
    obtain ⟨hc, htext⟩ := List.forall_mem_cons.1 h
    rw [wordsFrom, if_neg (by simp [hc]), ih htext (Or.inl (List.cons_ne_nil c word))]
    simp

/-- A text without a blank is one word. -/
theorem words_eq_singleton {word : Text} (hne : word ≠ [])
    (h : ∀ c ∈ word, isBlank c = false) : words word = [word] :=
  wordsFrom_of_not_isBlank h (Or.inr hne)

theorem words_joinWith {list : List Text}
    (h : ∀ word ∈ list, word ≠ [] ∧ ∀ c ∈ word, isBlank c = false) :
    words (joinWith [' '] list) = list := by
  induction list with
  | nil => rfl
  | cons word list ih =>
    obtain ⟨⟨hne, hword⟩, hlist⟩ := List.forall_mem_cons.1 h
    cases list with
    | nil => exact words_eq_singleton hne hword
    | cons next list =>
      rw [joinWith_cons_cons, List.append_assoc, List.singleton_append,
        words_append_cons (by decide), words_eq_singleton hne hword, ih hlist,
        List.singleton_append]

/-- Collapsing keeps the words. -/
@[simp]
theorem words_collapse (text : Text) : words (collapse text) = words text :=
  words_joinWith fun _ => mem_words

/-! ## Words line by line -/

/-- Line feeds separate words. -/
theorem words_unlines (ls : List Text) : words (unlines ls) = ls.flatMap words := by
  induction ls with
  | nil => rfl
  | cons l ls ih =>
    cases ls with
    | nil => rw [List.flatMap_singleton]; rfl
    | cons next ls =>
      rw [unlines_cons (List.cons_ne_nil next ls), words_append_cons (by decide), ih]
      rfl

theorem flatMap_words_endedLines (parts : List Text) :
    (endedLines parts).flatMap words = parts.flatMap words := by
  fun_induction endedLines parts with
  | case1 => rfl
  | case2 last hnil =>
    rw [List.isEmpty_iff.1 hnil]
    rfl
  | case3 last hempty => rfl
  | case4 line more _ ih => rw [List.flatMap_cons, List.flatMap_cons, ih, words_dropFinalReturn]

theorem flatMap_words_lines (text : Text) : (lines text).flatMap words = words text := by
  rw [lines, flatMap_words_endedLines, ← words_unlines, unlines_splitOn]

/-- The visible lines of a text have its words. -/
theorem flatMap_words_visibleLines (text : Text) :
    (visibleLines text).flatMap words = words text := by
  rw [visibleLines, ← flatMap_words_lines text]
  induction lines text with
  | nil => rfl
  | cons l ls ih =>
    rw [List.map_cons, List.flatMap_cons, List.filter_cons, ← ih]
    split
    · rw [List.flatMap_cons, words_trim]
    · next hempty =>
      have hnil : trim l = [] := by simpa using hempty
      rw [← words_trim l, hnil]
      rfl

end SlimTemplate.Text
