import SlimTemplate.Proofs.Text.Lines
import SlimTemplate.Writer.Opening

/-!
# The opening of an element on its line

The opening of an element begins with a letter, `#` or `.`, and stays on one line as long as
neither its name nor its identifier nor a key of an attribute breaks the line. The values of the
other attributes may: their line feeds are written as spaces.

## Main definitions

* `Markup.Element.FitsLine`: an element whose opening stays on one line.

## Main statements

* `Markup.Element.opening_eq_cons`: the opening begins with a character that is not blank.
* `Markup.Element.lineFeed_not_mem_opening`: the opening has no line feed.
-/

namespace SlimTemplate

namespace Markup.Element

/-- An element whose name starts with a letter and holds no blank, and none of whose keys and
identifiers holds a line feed. -/
def FitsLine (e : Element) : Prop :=
  (∃ c rest, e.name = c :: rest ∧ c.isAlpha = true) ∧ (∀ c ∈ e.name, Text.isBlank c = false) ∧
    ∀ key value, (key, value) ∈ e.attributes →
      '\n' ∉ key ∧ (key = "id".toList → '\n' ∉ value)

theorem mem_attributes_of_attribute? {e : Element} {name value : Text}
    (h : e.attribute? name = some value) : (name, value) ∈ e.attributes := by
  obtain ⟨⟨key, v⟩, hfind, rfl⟩ := Option.map_eq_some_iff.1 h
  have hkey : key = name := by simpa using List.find?_some hfind
  rw [← hkey]
  exact List.mem_of_find?_eq_some hfind

/-- An identifier that is written is the trimmed value of an attribute and not empty. -/
theorem id?_eq_some {e : Element} {id : Text} (h : e.id? = some id) :
    id ≠ [] ∧ ∃ value, ("id".toList, value) ∈ e.attributes ∧ id = Text.trim value := by
  obtain ⟨hid, hne⟩ := Option.filter_eq_some_iff.1 h
  obtain ⟨value, hvalue, rfl⟩ := Option.map_eq_some_iff.1 hid
  exact ⟨by simpa using hne, value, mem_attributes_of_attribute? hvalue, rfl⟩

/-- A class holds no blank. -/
theorem isBlank_eq_false_of_mem_classes {e : Element} {name : Text} (h : name ∈ e.classes) :
    ∀ c ∈ name, Text.isBlank c = false := by
  rw [classes] at h
  split at h
  · exact (Text.mem_words h).2
  · simp at h

theorem ne_nil_of_mem_classes {e : Element} {name : Text} (h : name ∈ e.classes) : name ≠ [] := by
  rw [classes] at h
  split at h
  · exact (Text.mem_words h).1
  · cases h

/-- The part of an opening behind the name. -/
def marking (e : Element) : Text :=
  (match e.id? with
    | some id => '#' :: id
    | none => []) ++
    (e.classes.flatMap fun c => '.' :: c) ++ bracketed e.otherAttributes

theorem opening_eq (e : Element) :
    e.opening = (if e.isNameless then [] else e.name) ++ e.marking := by
  unfold opening marking
  cases e.id? <;> simp only [List.append_assoc]

/-- An element whose name is left out has an identifier or a class to begin with. -/
theorem marking_eq_cons {e : Element} (h : e.isNameless = true) :
    ∃ c rest, e.marking = c :: rest ∧ (c = '#' ∨ c = '.') := by
  simp only [isNameless, Bool.and_eq_true, Bool.or_eq_true] at h
  rw [marking]
  cases hid : e.id? with
  | some id => exact ⟨'#', _, rfl, Or.inl rfl⟩
  | none =>
    cases hclasses : e.classes with
    | nil => simp [hid, hclasses] at h
    | cons name more => exact ⟨'.', _, rfl, Or.inr rfl⟩

/-- The opening of an element begins with a character that is not blank. -/
theorem opening_eq_cons {e : Element} (h : ∃ c rest, e.name = c :: rest ∧ c.isAlpha = true) :
    ∃ c rest, e.opening = c :: rest ∧ Text.isBlank c = false := by
  rw [opening_eq]
  cases hn : e.isNameless with
  | true =>
    obtain ⟨c, rest, heq, hc⟩ := marking_eq_cons hn
    refine ⟨c, rest, by simpa using heq, ?_⟩
    rcases hc with rfl | rfl <;> decide
  | false =>
    obtain ⟨c, rest, hname, hc⟩ := h
    exact ⟨c, rest ++ e.marking, by simp [hname], Text.isBlank_eq_false_of_isAlpha hc⟩

theorem lineFeed_not_mem_attributeText {key value : Text} (h : '\n' ∉ key) :
    '\n' ∉ attributeText (key, value) := by
  have hvalue : '\n' ∉ value.map fun c => if c = '\n' then ' ' else c := by
    intro hmem
    obtain ⟨c, -, hc⟩ := List.mem_map.1 hmem
    split at hc
    · exact absurd hc (by decide)
    · next hne => exact hne hc
  simp only [attributeText]
  split
  · exact h
  · split
    · simp [h, hvalue]
    · simp [h, hvalue]

theorem lineFeed_not_mem_bracketed {attributes : List Attribute}
    (h : ∀ key value, (key, value) ∈ attributes → '\n' ∉ key) : '\n' ∉ bracketed attributes := by
  rw [bracketed]
  split
  · simp
  · intro hmem
    simp only [List.mem_append, List.mem_cons, List.not_mem_nil, or_false] at hmem
    rcases hmem with (hmem | hmem) | hmem
    · exact absurd hmem (by decide)
    · rcases Text.mem_joinWith hmem with hmem | ⟨part, hpart, hmem⟩
      · exact absurd hmem (by decide)
      · obtain ⟨⟨key, value⟩, hkey, rfl⟩ := List.mem_map.1 hpart
        exact lineFeed_not_mem_attributeText (h key value hkey) hmem
    · exact absurd hmem (by decide)

/-- The opening of an element has no line feed. -/
theorem lineFeed_not_mem_opening {e : Element} (h : e.FitsLine) : '\n' ∉ e.opening := by
  obtain ⟨-, hname, hattributes⟩ := h
  have hfirst : '\n' ∉ (if e.isNameless then [] else e.name) := by
    intro hmem
    split at hmem
    · simp at hmem
    · exact absurd (hname _ hmem) (by decide)
  have hid : '\n' ∉ (match e.id? with
      | some id => '#' :: id
      | none => []) := by
    split
    · next id heq =>
      obtain ⟨-, value, hvalue, rfl⟩ := id?_eq_some heq
      intro hmem
      rcases List.mem_cons.1 hmem with hmem | hmem
      · exact absurd hmem (by decide)
      · exact (hattributes _ value hvalue).2 rfl (Text.mem_of_mem_trim hmem)
    · simp
  have hclasses : '\n' ∉ e.classes.flatMap fun c => '.' :: c := by
    intro hmem
    obtain ⟨name, hmemName, hmem⟩ := List.mem_flatMap.1 hmem
    rcases List.mem_cons.1 hmem with hmem | hmem
    · exact absurd hmem (by decide)
    · exact absurd (isBlank_eq_false_of_mem_classes hmemName _ hmem) (by decide)
  have hothers : '\n' ∉ bracketed e.otherAttributes := by
    apply lineFeed_not_mem_bracketed
    intro key value hmem
    exact (hattributes key value (List.mem_filter.1 hmem).1).1
  simp only [opening, List.mem_append, not_or]
  exact ⟨⟨⟨hfirst, hid⟩, hclasses⟩, hothers⟩

end Markup.Element

end SlimTemplate
