import Mathlib.Data.List.Infix
import Mathlib.Data.List.TakeWhile
import SlimTemplate.Text.Basic

/-!
# Finding a text in another

The tests for a text at the start, at the end or inside of another say what the relations of
lists say.

## Main statements

* `Text.dropPrefix?_eq_some_iff`, `Text.hasPrefix_iff`, `Text.hasSuffix_iff`, `Text.hasInfix_iff`.
* `Text.exists_first_of_isInfix`: a text is split at the first occurrence of a part.
-/

namespace SlimTemplate.Text

/-- What is tested of a given text is tested of its characters alone. -/
theorem forall_of_all {P : Char → Prop} [DecidablePred P] {text : Text}
    (h : (text.all fun c => decide (P c)) = true) : ∀ c ∈ text, P c :=
  fun c hc => of_decide_eq_true (List.all_eq_true.1 h c hc)

theorem dropPrefix?_eq_some_iff {start text rest : Text} :
    dropPrefix? start text = some rest ↔ text = start ++ rest := by
  induction start generalizing text with
  | nil => simp [dropPrefix?]
  | cons p start ih =>
    cases text with
    | nil => simp [dropPrefix?]
    | cons c text =>
      by_cases hp : p = c
      · simp [dropPrefix?, hp, ih]
      · simp [dropPrefix?, hp, Ne.symm hp]

theorem dropPrefix?_append (start rest : Text) : dropPrefix? start (start ++ rest) = some rest :=
  dropPrefix?_eq_some_iff.2 rfl

theorem hasPrefix_iff {start text : Text} : hasPrefix start text = true ↔ start <+: text := by
  rw [hasPrefix, Option.isSome_iff_exists]
  constructor
  · rintro ⟨rest, h⟩
    exact ⟨rest, (dropPrefix?_eq_some_iff.1 h).symm⟩
  · rintro ⟨rest, rfl⟩
    exact ⟨rest, dropPrefix?_append start rest⟩

theorem hasSuffix_iff {ending text : Text} : hasSuffix ending text = true ↔ ending <:+ text := by
  rw [hasSuffix, hasPrefix_iff, List.reverse_prefix]

theorem hasInfix_iff {part text : Text} : hasInfix part text = true ↔ part <:+: text := by
  induction text with
  | nil => simp [hasInfix]
  | cons c text ih =>
    rw [hasInfix, Bool.or_eq_true, hasPrefix_iff, ih, List.infix_cons_iff]

theorem eq_append_of_cutAt? {part text before after : Text}
    (h : cutAt? part text = some (before, after)) : text = before ++ (part ++ after) := by
  fun_induction cutAt? part text generalizing before with
  | case1 hpart =>
    obtain ⟨rfl, rfl⟩ := Prod.mk.inj (Option.some.inj h)
    rw [List.isEmpty_iff.1 hpart]
    rfl
  | case2 => simp at h
  | case3 c text rest hrest =>
    obtain ⟨rfl, rfl⟩ := Prod.mk.inj (Option.some.inj h)
    rw [List.nil_append]
    exact dropPrefix?_eq_some_iff.1 hrest
  | case4 c text _ ih =>
    obtain ⟨⟨more, rest⟩, hcut, heq⟩ := Option.map_eq_some_iff.1 h
    obtain ⟨rfl, rfl⟩ := Prod.mk.inj heq
    rw [ih hcut, List.cons_append]

/-- A text is cut where a part occurs in it, and nowhere else. -/
theorem cutAt?_eq_none {part text : Text} (h : ¬part <:+: text) : cutAt? part text = none := by
  induction text with
  | nil =>
    rw [cutAt?, if_neg]
    intro hempty
    rw [List.isEmpty_iff.1 hempty] at h
    exact h List.infix_rfl
  | cons c text ih =>
    obtain ⟨hbegins, htext⟩ := not_or.1 (mt List.infix_cons_iff.2 h)
    have hnone : dropPrefix? part (c :: text) = none := by
      rw [← hasPrefix_iff, hasPrefix] at hbegins
      simpa using hbegins
    rw [cutAt?, hnone, ih htext]
    rfl

/-- What does not occur in a text occurs in neither part of it. -/
theorem not_isInfix_of_append {part a b : Text} (h : ¬part <:+: a ++ b) :
    ¬part <:+: a ∧ ¬part <:+: b :=
  ⟨fun hpart => h (hpart.trans (List.prefix_append a b).isInfix),
    fun hpart => h (hpart.trans (List.suffix_append a b).isInfix)⟩

/-- A text is split at the first occurrence of a part. -/
theorem exists_first_of_isInfix {part text : Text} (hne : part ≠ []) (h : part <:+: text) :
    ∃ before after, text = before ++ part ++ after ∧ ¬part <:+: before := by
  induction text with
  | nil => exact absurd (List.infix_nil.1 h) hne
  | cons c text ih =>
    by_cases hbegins : part <+: c :: text
    · obtain ⟨after, hafter⟩ := hbegins
      exact ⟨[], after, hafter.symm, fun hfound => hne (List.infix_nil.1 hfound)⟩
    · have hlater : part <:+: text := (List.infix_cons_iff.1 h).resolve_left hbegins
      obtain ⟨before, after, rfl, hfirst⟩ := ih hlater
      refine ⟨c :: before, after, rfl, fun hfound => ?_⟩
      rcases List.infix_cons_iff.1 hfound with hbefore | hwithin
      · exact hbegins (hbefore.trans ⟨part ++ after, by simp⟩)
      · exact hfirst hwithin

theorem mem_of_mem_replaceFrom {part replacement text : Text} {skip : Nat} {c : Char}
    (h : c ∈ replaceFrom part replacement skip text) : c ∈ replacement ∨ c ∈ text := by
  fun_induction replaceFrom part replacement skip text with
  | case1 => simp at h
  | case2 skip d text ih => exact (ih h).imp_right (List.mem_cons_of_mem _)
  | case3 d text _ ih =>
    rcases List.mem_append.1 h with h | h
    · exact Or.inl h
    · exact (ih h).imp_right (List.mem_cons_of_mem _)
  | case4 d text _ ih =>
    rcases List.mem_cons.1 h with rfl | h
    · exact Or.inr List.mem_cons_self
    · exact (ih h).imp_right (List.mem_cons_of_mem _)

/-- What occurs after replacing occurred before or is in the replacement. -/
theorem mem_of_mem_replaceAll {part replacement text : Text} {c : Char}
    (h : c ∈ replaceAll part replacement text) : c ∈ replacement ∨ c ∈ text :=
  mem_of_mem_replaceFrom h

/-- Characters are taken up to one that does not count. -/
theorem takeWhile_append_cons_of_neg {p : Char → Bool} {c : Char} (hc : p c = false)
    (text rest : Text) : (text ++ c :: rest).takeWhile p = text.takeWhile p := by
  induction text with
  | nil => simp [hc]
  | cons d text ih =>
    by_cases hd : p d = true
    · simpa [hd] using ih
    · simp [hd]

theorem dropWhile_append_cons_of_neg {p : Char → Bool} {c : Char} (hc : p c = false)
    (text rest : Text) : (text ++ c :: rest).dropWhile p = text.dropWhile p ++ c :: rest := by
  induction text with
  | nil => simp [hc]
  | cons d text ih =>
    by_cases hd : p d = true
    · simpa [hd] using ih
    · simp [hd]

/-- What is left begins with an entry that does not satisfy the test. -/
theorem eq_false_of_mem_head?_dropWhile {α : Type} {p : α → Bool} {list : List α} {a : α}
    (h : a ∈ (list.dropWhile p).head?) : p a = false := by
  have hstop := List.head?_dropWhile_not p list
  rw [Option.mem_def.1 h] at hstop
  exact hstop

/-- What is dropped satisfies the test, and what is left begins with a character that does not. -/
theorem eq_append_of_dropWhile {p : Char → Bool} {text rest : Text} {c : Char}
    (h : text.dropWhile p = c :: rest) :
    ∃ before, text = before ++ c :: rest ∧ (∀ d ∈ before, p d = true) ∧ p c = false := by
  refine ⟨text.takeWhile p, ?_, fun d hd => List.mem_takeWhile_imp hd, ?_⟩
  · rw [← h, List.takeWhile_append_dropWhile]
  · exact eq_false_of_mem_head?_dropWhile (by rw [h]; rfl)

end SlimTemplate.Text
