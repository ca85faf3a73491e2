import SlimTemplate.Proofs.Text.Lines
import SlimTemplate.Proofs.Text.Search

/-!
# Words that a text mentions

A word without blanks cannot reach across a blank, nor across any other character that is not in
it. So it stands in a text exactly if it stands in one of the parts that such characters separate:
trimming, cutting into lines, and collapsing neither lose it nor bring it about.

## Main definitions

* `Text.IsWord`: a text that is not empty and has no blank.

## Main statements

* `Text.isInfix_append_cons_iff`: a part does not reach across a character that is not in it.
* `Text.IsWord.isInfix_visibleLines_iff`, `Text.IsWord.isInfix_collapse_iff`: lines and collapsed
  texts mention what the text mentions.
-/

namespace SlimTemplate.Text

variable {part : Text}

/-! ## Separators -/

/-- A part does not reach across a character that is not in it. -/
theorem isInfix_append_cons_iff {c : Char} (hc : c ∉ part) {a b : Text} :
    part <:+: a ++ c :: b ↔ part <:+: a ∨ part <:+: b := by
  constructor
  · rintro ⟨before, after, h⟩
    rw [List.append_eq_append_iff] at h
    rcases h with ⟨rest, ha, -⟩ | ⟨rest, hbefore, hb⟩
    · exact .inl ⟨before, rest, ha.symm⟩
    · rw [List.append_eq_append_iff] at hbefore
      rcases hbefore with ⟨start, ha, hpart⟩ | ⟨start, -, hrest⟩
      · -- The part begins before the separator, so it ends there too.
        cases rest with
        | nil =>
          rw [List.append_nil] at hpart
          exact .inl ⟨before, [], by rw [List.append_nil, ha, hpart]⟩
        | cons d rest =>
          obtain ⟨rfl, -⟩ := List.cons.inj hb
          exact absurd (hpart ▸ List.mem_append_right start List.mem_cons_self) hc
      · cases start with
        | nil =>
          cases rest with
          | nil => exact .inl ((List.append_eq_nil_iff.1 hrest.symm).2 ▸ List.nil_infix)
          | cons d rest =>
            obtain ⟨rfl, -⟩ := List.cons.inj hb
            rw [List.nil_append] at hrest
            exact absurd (hrest ▸ List.mem_cons_self) hc
        | cons d start =>
          rw [hrest, List.cons_append] at hb
          obtain ⟨-, rfl⟩ := List.cons.inj hb
          exact .inr ⟨start, after, rfl⟩
  · rintro (h | h)
    · exact h.trans (List.prefix_append a _).isInfix
    · exact h.trans ((List.suffix_cons c b).trans (List.suffix_append a _)).isInfix

theorem isInfix_nil_iff (hne : part ≠ []) : part <:+: [] ↔ False :=
  iff_of_false (fun h => hne (List.infix_nil.1 h)) id

theorem isInfix_cons_iff_of_not_mem (hne : part ≠ []) {c : Char} (hc : c ∉ part) {b : Text} :
    part <:+: c :: b ↔ part <:+: b := by
  have h := isInfix_append_cons_iff hc (a := []) (b := b)
  rwa [List.nil_append, isInfix_nil_iff hne, false_or] at h

/-- A part does not reach into a text that begins with a character that is not in it. -/
theorem isInfix_append_iff_of_head (hne : part ≠ []) {a b : Text}
    (hb : ∀ c, b.head? = some c → c ∉ part) : part <:+: a ++ b ↔ part <:+: a ∨ part <:+: b := by
  cases b with
  | nil => rw [List.append_nil, isInfix_nil_iff hne, or_false]
  | cons c b =>
    have hc := hb c rfl
    rw [isInfix_append_cons_iff hc, isInfix_cons_iff_of_not_mem hne hc]

theorem isInfix_append_left_iff (hne : part ≠ []) {a b : Text} (ha : ∀ c ∈ a, c ∉ part) :
    part <:+: a ++ b ↔ part <:+: b := by
  induction a with
  | nil => rw [List.nil_append]
  | cons c a ih =>
    obtain ⟨hc, hrest⟩ := List.forall_mem_cons.1 ha
    rw [List.cons_append, isInfix_cons_iff_of_not_mem hne hc, ih hrest]

theorem isInfix_append_right_iff (hne : part ≠ []) {a b : Text} (hb : ∀ c ∈ b, c ∉ part) :
    part <:+: a ++ b ↔ part <:+: a := by
  have hhead : ∀ c, b.head? = some c → c ∉ part := fun c hc => hb c (List.mem_of_mem_head? hc)
  rw [isInfix_append_iff_of_head hne hhead, or_iff_left]
  have h := isInfix_append_left_iff hne (b := []) hb
  rw [List.append_nil, isInfix_nil_iff hne] at h
  exact h.1

/-- Joined texts mention what one of them mentions. -/
theorem isInfix_joinWith_iff (hne : part ≠ []) {c : Char} (hc : c ∉ part) {texts : List Text} :
    part <:+: joinWith [c] texts ↔ ∃ text ∈ texts, part <:+: text := by
  induction texts with
  | nil => simpa [joinWith] using hne
  | cons text more ih =>
    cases more with
    | nil => simp [joinWith]
    | cons next more =>
      rw [joinWith_cons_cons, List.append_assoc, List.singleton_append,
        isInfix_append_cons_iff hc, ih, List.exists_mem_cons_iff _ text]

/-! ## Words -/

/-- A text that is not empty and has no blank. -/
structure IsWord (part : Text) : Prop where
  ne_nil : part ≠ []
  isBlank_eq_false : ∀ c ∈ part, isBlank c = false

namespace IsWord

variable (h : IsWord part)

include h

theorem not_mem {c : Char} (hc : isBlank c = true) : c ∉ part := by
  intro hmem
  rw [h.isBlank_eq_false c hmem] at hc
  cases hc

theorem isInfix_trimStart_iff {text : Text} : part <:+: trimStart text ↔ part <:+: text := by
  have hsplit : text.takeWhile isBlank ++ trimStart text = text := List.takeWhile_append_dropWhile
  have hblank : ∀ c ∈ text.takeWhile isBlank, c ∉ part :=
    fun c hc => h.not_mem (List.mem_takeWhile_imp hc)
  rw [← isInfix_append_left_iff h.ne_nil hblank, hsplit]

theorem isInfix_trimEnd_iff {text : Text} : part <:+: trimEnd text ↔ part <:+: text := by
  have hblank : ∀ c ∈ text.rtakeWhile isBlank, c ∉ part :=
    fun c hc => h.not_mem (List.mem_rtakeWhile_imp hc)
  rw [← isInfix_append_right_iff h.ne_nil hblank, trimEnd_append_rtakeWhile]

theorem isInfix_trim_iff {text : Text} : part <:+: trim text ↔ part <:+: text := by
  rw [trim, h.isInfix_trimEnd_iff, h.isInfix_trimStart_iff]

theorem isInfix_dropFinalReturn_iff {line : Text} :
    part <:+: dropFinalReturn line ↔ part <:+: line := by
  rcases dropFinalReturn_cases line with heq | heq
  · rw [heq]
  · conv_rhs => rw [heq]
    rw [isInfix_append_right_iff h.ne_nil fun c hc => h.not_mem (isBlank_of_mem_return c hc)]

/-- The lines of a text mention what the text mentions. -/
theorem isInfix_lines_iff (text : Text) : (∃ line ∈ lines text, part <:+: line) ↔ part <:+: text := by
  have hended : ∀ ls : List Text, (∃ line ∈ endedLines ls, part <:+: line) ↔
      ∃ line ∈ ls, part <:+: line := by
    intro ls
    fun_induction endedLines ls with
    | case1 => rfl
    | case2 last hlast =>
      rw [List.isEmpty_iff.1 hlast]
      simpa using h.ne_nil
    | case3 last hlast => rfl
    | case4 line more _ ih =>
      rw [List.exists_mem_cons_iff, List.exists_mem_cons_iff, ih, h.isInfix_dropFinalReturn_iff]
  have hlf : '\n' ∉ part := h.not_mem (by decide)
  rw [lines, hended, ← isInfix_joinWith_iff h.ne_nil hlf]
  exact iff_of_eq (congrArg (part <:+: ·) (unlines_splitOn text))

/-- The visible lines of a text mention what the text mentions. -/
theorem isInfix_visibleLines_iff (text : Text) :
    (∃ line ∈ visibleLines text, part <:+: line) ↔ part <:+: text := by
  rw [← h.isInfix_lines_iff text]
  constructor
  · rintro ⟨line, hline, hpart⟩
    obtain ⟨whole, hwhole, rfl⟩ := List.mem_map.1 (List.mem_filter.1 hline).1
    exact ⟨whole, hwhole, h.isInfix_trim_iff.1 hpart⟩
  · rintro ⟨line, hline, hpart⟩
    have hpart' := h.isInfix_trim_iff.2 hpart
    refine ⟨trim line, List.mem_filter.2 ⟨List.mem_map_of_mem hline, ?_⟩, hpart'⟩
    rw [Bool.not_eq_true', List.isEmpty_eq_false_iff]
    rintro hnil
    rw [hnil] at hpart'
    exact h.ne_nil (List.infix_nil.1 hpart')

theorem isInfix_wordsFrom_iff {word text : Text} :
    (∃ w ∈ wordsFrom word text, part <:+: w) ↔ part <:+: word.reverse ++ text := by
  fun_induction wordsFrom word text with
  | case1 word hempty =>
    rw [List.isEmpty_iff.1 hempty]
    simpa using h.ne_nil
  | case2 word hempty => simp
  | case3 word c text hc hempty ih =>
    rw [ih, List.isEmpty_iff.1 hempty, List.reverse_nil, List.nil_append, List.nil_append,
      isInfix_cons_iff_of_not_mem h.ne_nil (h.not_mem hc)]
  | case4 word c text hc hempty ih =>
    rw [List.exists_mem_cons_iff, ih, List.reverse_nil, List.nil_append,
      isInfix_append_cons_iff (h.not_mem hc)]
  | case5 word c text hc ih =>
    rw [ih, List.reverse_cons, List.append_assoc, List.singleton_append]

/-- A collapsed text mentions what the text mentions. -/
theorem isInfix_collapse_iff {text : Text} : part <:+: collapse text ↔ part <:+: text := by
  have hspace : ' ' ∉ part := h.not_mem (by decide)
  rw [collapse, isInfix_joinWith_iff h.ne_nil hspace, words, h.isInfix_wordsFrom_iff]
  rfl

end IsWord

end SlimTemplate.Text
