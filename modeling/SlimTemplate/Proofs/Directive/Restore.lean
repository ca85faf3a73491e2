import SlimTemplate.Proofs.Directive.Bytes
import SlimTemplate.Proofs.Directive.PutBack

/-!
# Directives in tags come back

The last pass undoes the first one on every text that does not itself begin a placeholder, whatever
the text leaves open: the placeholders that the last pass finds are the ones that the first pass
has put there, also where two of them touch or follow digits and underscores of the text.

## Main statements

* `Directive.putBack_setAsideFrom`: what has been read and what is left come out as they were.
* `Directive.putBack_setAside`: the last pass undoes the first one, over bytes as well.
-/

namespace SlimTemplate.Directive

/-- At most one directive is set aside for each character. -/
theorem length_setAsideFrom (n : Nat) (place : Place) (text : Text) :
    (setAsideFrom n place text).2.length ≤ text.length := by
  induction n, place, text using setAsideFrom_induction with
  | nil n place => simp [setAsideFrom]
  | directive n place text code after hcode ih =>
    have hlength := length_codeInTag? hcode
    simp only [setAsideFrom_of_codeInTag? n hcode, List.length_cons]
    omega
  | leftOpen n place text hopen => simp [setAsideFrom_of_isLeftOpen n hopen]
  | char n place c text hcode hopen ih =>
    simp only [setAsideFrom_cons n hcode hopen, List.length_cons]
    omega

/-- What has been read and holds no placeholder stays, and every directive that is set aside in what
is left comes back. -/
theorem putBack_setAsideFrom {stash more : List Text} {n : Nat} {place : Place}
    {before text : Text} (hstash : stash.drop n = (setAsideFrom n place text).2 ++ more)
    (hsize : stash.length ≤ Text.maxSize) (hfree : ¬placeholderStart <:+: before ++ text) :
    putBack stash (before ++ (setAsideFrom n place text).1) = before ++ text := by
  induction n, place, text using setAsideFrom_induction generalizing before with
  | nil n place =>
    rw [setAsideFrom]
    exact putBack_of_not_isInfix stash hfree
  | directive n place text code after hcode ih =>
    obtain ⟨-, rfl, -⟩ := exists_of_codeInTag? hcode
    rw [setAsideFrom_of_codeInTag? n hcode] at hstash ⊢
    obtain ⟨hdirective, hdrop⟩ := getElem?_of_drop_eq_cons hstash
    have hn : n ≤ Text.maxSize := by
      have hlt := (List.getElem?_eq_some_iff.1 hdirective).1
      omega
    obtain ⟨hbefore, hrest⟩ := Text.not_isInfix_of_append hfree
    have hafter : ¬placeholderStart <:+: [] ++ after := (Text.not_isInfix_of_append hrest).2
    have hback := ih hdrop hafter
    rw [List.nil_append, List.nil_append] at hback
    rw [putBack_append_placeholder hbefore hdirective hn, hback]
  | leftOpen n place text hopen =>
    rw [setAsideFrom_of_isLeftOpen n hopen]
    exact putBack_of_not_isInfix stash hfree
  | char n place c text hcode hopen ih =>
    rw [setAsideFrom_cons n hcode hopen] at hstash ⊢
    have hmove : ∀ rest : Text, before ++ c :: rest = before ++ [c] ++ rest := by simp
    rw [hmove] at hfree
    have hback := ih hstash hfree
    rwa [← hmove, ← hmove] at hback

/-- On a text without the beginning of a placeholder the last pass undoes the first one, and no
directive stays set aside. -/
theorem putBack_setAside {text : Text} (hfree : ¬placeholderStart <:+: text)
    (hsize : text.length ≤ Text.maxSize) :
    setAsideBytes? ⟨text, []⟩ = some (Pass.setAside.run ⟨text, []⟩) ∧
      Pass.putBack.run (Pass.setAside.run ⟨text, []⟩) = ⟨text, []⟩ := by
  refine ⟨setAsideBytes?_eq ⟨text, []⟩, ?_⟩
  have hstash : (setAside 0 text).2.length ≤ Text.maxSize :=
    (length_setAsideFrom 0 .outside text).trans hsize
  have hback : putBack (setAside 0 text).2 ([] ++ (setAside 0 text).1) = [] ++ text :=
    putBack_setAsideFrom (by rw [List.drop_zero, List.append_nil]; rfl) hstash hfree
  show (⟨putBack (setAside 0 text).2 (setAside 0 text).1, []⟩ : Draft) = ⟨text, []⟩
  rw [List.nil_append, List.nil_append] at hback
  rw [hback]

/-- A tag, a value and a directive left open, among characters of several bytes. -/
theorem putBack_setAside_leftOpen :
    setAsideBytes? ⟨"é<p ü=\"<%= é %>__<%= 1 %>0__<% ü".toList, []⟩ =
        some (Pass.setAside.run ⟨"é<p ü=\"<%= é %>__<%= 1 %>0__<% ü".toList, []⟩) ∧
      Pass.putBack.run (Pass.setAside.run ⟨"é<p ü=\"<%= é %>__<%= 1 %>0__<% ü".toList, []⟩) =
        ⟨"é<p ü=\"<%= é %>__<%= 1 %>0__<% ü".toList, []⟩ :=
  putBack_setAside (by decide) (by decide)

end SlimTemplate.Directive
