import SlimTemplate.Proofs.Extraction.Idempotent
import SlimTemplate.Proofs.Extraction.Places

/-!
# What comments are about

The clean-up decides about a comment by the next line that it has left itself, so its decisions
depend on each other through whole runs of comments. Still they can be told from the lines as they
were: what a comment is about is the first line behind it that is no comment, and it stays exactly
if there is one and no line up to there is shallower than the comment.

## Main definitions

* `LineTree.IsSubject`: the line that a comment is about.
* `LineTree.LeadsToSubject`: a line with nothing shallower up to what it is about.

## Main statements

* `Extraction.dropOrphans_eq_linesAt`: which lines the clean-up leaves.
-/

namespace SlimTemplate

open LineTree

variable {tree : LineTree} {i s : Nat}

namespace LineTree

/-- A line is the first one behind a place that is no comment. -/
def IsSubject (tree : LineTree) (i s : Nat) : Prop :=
  (i < s ∧ s < tree.lines.length ∧ ¬tree.IsCommentAt s) ∧ ∀ m < s, i < m → tree.IsCommentAt m

/-- Behind a line is one that is no comment, and no line up to the first such is shallower. -/
def LeadsToSubject (tree : LineTree) (i : Nat) : Prop :=
  ∃ s, tree.IsSubject i s ∧ ∀ m ≤ s, i < m → tree.levelAt i ≤ tree.levelAt m

instance (tree : LineTree) : DecidablePred tree.IsCommentAt := fun i =>
  decidable_of_iff (tree.lines[i]?.any (·.kind.isComment) = true) (Option.any_eq_true _ _)

instance (tree : LineTree) (i s : Nat) : Decidable (tree.IsSubject i s) :=
  inferInstanceAs (Decidable (_ ∧ _))

instance (tree : LineTree) : DecidablePred tree.LeadsToSubject := fun i =>
  decidable_of_iff (∃ s < tree.lines.length, tree.IsSubject i s ∧
      ∀ m ≤ s, i < m → tree.levelAt i ≤ tree.levelAt m) <|
    exists_congr fun _ => and_iff_right_of_imp fun h => h.1.1.2.1

/-- Where any line behind a place is no comment, there is a first such line. -/
theorem exists_isSubject (hi : i < s) (hs : s < tree.lines.length)
    (hsubject : ¬tree.IsCommentAt s) : ∃ f ≤ s, tree.IsSubject i f := by
  have hex : ∃ f, i < f ∧ f < tree.lines.length ∧ ¬tree.IsCommentAt f := ⟨s, hi, hs, hsubject⟩
  refine ⟨Nat.find hex, Nat.find_min' hex ⟨hi, hs, hsubject⟩, Nat.find_spec hex, ?_⟩
  intro m hm him
  by_contra hcomment
  exact Nat.find_min hex hm ⟨him, hm.trans (Nat.find_spec hex).2.1, hcomment⟩

/-- Among all lines of a tree it makes no difference whether a comment is about the first line
behind it that is no comment or about a later one. -/
theorem hasSubject_iff_leadsToSubject :
    tree.HasSubject (· < tree.lines.length) (tree.levelAt i) i ↔ tree.LeadsToSubject i := by
  constructor
  · rintro ⟨s, his, hs, hsubject, hlow⟩
    obtain ⟨f, hfs, hf⟩ := exists_isSubject his hs hsubject
    exact ⟨f, hf, fun m hm him => hlow m him (hm.trans hfs) ((hm.trans hfs).trans_lt hs)⟩
  · rintro ⟨s, ⟨⟨his, hs, hsubject⟩, -⟩, hlow⟩
    exact ⟨s, his, hs, hsubject, fun m him hm _ => hlow m hm him⟩

theorem survives_iff :
    tree.Survives (· < tree.lines.length) i ↔ (tree.IsCommentAt i → tree.LeadsToSubject i) :=
  imp_congr_right fun _ => hasSubject_iff_leadsToSubject

/-- The clean-up of all lines leaves those that survive among them. -/
theorem chooses_dropOrphans (tree : LineTree) :
    tree.Chooses (tree.Survives (· < tree.lines.length)) 0 (Extraction.dropOrphans tree.lines) := by
  obtain ⟨kept, hkept, hlines, hmem⟩ := (isChoice_range tree).exists_dropOrphans
  rw [linesAt_range] at hlines
  simp only [List.mem_range] at hmem
  refine ⟨kept, hkept, hlines, fun i => ?_⟩
  rw [hmem, and_iff_right (Nat.zero_le i)]

end LineTree

namespace Extraction

theorem filter_dropOrphans (lines : List SlimLine) :
    (dropOrphans lines).filter (fun line => !line.kind.isComment) =
      lines.filter fun line => !line.kind.isComment := by
  induction lines with
  | nil => rfl
  | cons line lines ih =>
    by_cases hstays : line.kind.isComment = true →
        ∃ next ∈ (dropOrphans lines).head?, line.level ≤ next.level
    · rw [dropOrphans_cons_of_stays hstays, List.filter_cons, List.filter_cons, ih]
    · obtain ⟨hcomment, horphan⟩ := Classical.not_imp.1 hstays
      rw [dropOrphans_cons_of_orphan hcomment horphan, ih,
        List.filter_cons_of_neg (by simp [hcomment])]

/-- The clean-up leaves the lines that are no comments, and of the comments exactly those behind
which a line is that is no comment, with no line up to the first such shallower than the comment.
All lines stay in order, none that is no comment is lost, and a second clean-up has nothing left to
do. -/
theorem dropOrphans_eq_linesAt (lines : List SlimLine) :
    let tree := LineTree.mk lines
    dropOrphans lines =
      tree.linesAt (tree.placesWhere fun i => tree.IsCommentAt i → tree.LeadsToSubject i) ∧
    (dropOrphans lines).filter (fun line => !line.kind.isComment) =
      lines.filter (fun line => !line.kind.isComment) ∧
    dropOrphans (dropOrphans lines) = dropOrphans lines := by
  intro tree
  refine ⟨(chooses_dropOrphans tree).eq_linesAt fun i => survives_iff, ?_,
    (isSettled_dropOrphans lines).dropOrphans_eq⟩
  exact filter_dropOrphans lines

end Extraction

end SlimTemplate
