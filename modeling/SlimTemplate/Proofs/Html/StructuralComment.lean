import SlimTemplate.Proofs.Directive.Comment
import SlimTemplate.Proofs.Html.Reads

/-!
# Structural comments read as HTML

HTML closes a comment at `--!>` as well as at `-->`, and only the latter is taken out of what a
structural comment holds. So the comment is read as one exactly when its body has no `--!>`;
otherwise it ends at the first of them, and what the body holds behind it is read as part of the
page.

## Main statements

* `Directive.scan_encode_append`: the comment ends at the first `--!>` of the body.
* `Directive.scan_encode_iff`: when a structural comment is read as one comment.
-/

namespace SlimTemplate.Directive

open Html (scan normalize)
open Html.Comment (closers LeavesOpen)
open Html.normalize (unifyLineEnds)

variable {kind : CommentKind} {body : Text}

/-- The closing of a comment that is left in the body. -/
def bangClosing : Text :=
  "--!>".toList

/-- The stand-in has no character of the other closing. -/
theorem not_mem_bangClosing_of_mem_standIn : ∀ c ∈ arrowStandIn, c ∉ bangClosing :=
  Text.forall_of_all (by decide)

theorem mem_closers_iff {close : Text} :
    close ∈ closers ↔ close = arrow ∨ close = bangClosing := by
  rw [closers, List.mem_cons, List.mem_singleton]
  rfl

/-- The text of a comment closes it only where its body has the other closing. -/
theorem leavesOpen_commentData (kind : CommentKind) (h : ¬bangClosing <:+: body) :
    LeavesOpen (commentData kind body) := by
  intro close hclose
  rcases mem_closers_iff.1 hclose with rfl | rfl
  · exact not_isInfix_arrow_commentData kind body
  · have hlabel : ∀ c ∈ kind.label, c ∉ bangClosing := by
      cases kind <;> exact Text.forall_of_all (by decide)
    rw [commentData, Text.isInfix_append_left_iff (by decide) hlabel]
    exact fun hfound => h (Text.isInfix_of_isInfix_replaceAll arrow_ne_nil (by decide) (by decide)
      not_mem_bangClosing_of_mem_standIn hfound)

/-- No arrow reaches into the other closing or out of it. -/
theorem commentData_append (before after : Text) :
    commentData kind (before ++ bangClosing ++ after) =
      commentData kind before ++ bangClosing ++ Text.replaceAll arrow arrowStandIn after := by
  have hclosing : Text.replaceAll arrow arrowStandIn (bangClosing ++ after) =
      bangClosing ++ Text.replaceAll arrow arrowStandIn after := rfl
  have hinto : ∀ ending, ending <:+ before → ending ≠ [] →
      arrow <+: ending ++ (bangClosing ++ after) → arrow <+: ending := by
    intro ending _ hne hfound
    exact Html.Comment.isPrefix_of_isPrefix_append (mem_closers_iff.2 (.inl rfl))
      (mem_closers_iff.2 (.inr rfl)) hne hfound
  rw [commentData, List.append_assoc, Text.replaceAll_append_of_apart arrow_ne_nil hinto, hclosing,
    commentData]
  simp only [List.append_assoc]

/-! ## Reading -/

theorem not_mem_commentData (kind : CommentKind) {c : Char} (hc : c = '\x00' ∨ c = '\r')
    (h : c ∉ body) : c ∉ commentData kind body := by
  have hlabel : c ∉ kind.label ∧ c ∉ arrowStandIn := by
    rcases hc with rfl | rfl <;> cases kind <;> decide
  rw [commentData, List.mem_append, not_or]
  exact ⟨hlabel.1, fun hmem => (Text.mem_of_mem_replaceAll hmem).elim hlabel.2 h⟩

/-- Line endings behind a comment are unified apart from it. -/
theorem normalize_encode_append (hreturn : '\r' ∉ body) (following : Text) :
    normalize (encode kind body ++ following) = encode kind body ++ unifyLineEnds following := by
  have hcomment : '\r' ∉ encode kind body := by
    have hdata := not_mem_commentData kind (.inr rfl) hreturn
    simp [encode, arrow, hdata]
  have hlast : (encode kind body).getLast? ≠ some '\r' :=
    fun hlast => hcomment (List.mem_of_getLast? hlast)
  show unifyLineEnds (encode kind body ++ following) = _
  rw [Html.unifyLineEnds_append (.inl hlast), Html.unifyLineEnds_eq hcomment]

/-- The text of a comment that is not closed within is read up to the closing behind it. -/
theorem scan_commentData (kind : CommentKind) {close : Text} (hclose : close ∈ closers)
    (h : ¬bangClosing <:+: body) (hnul : '\x00' ∉ body) (inForeign : Bool) (rest : Text) :
    scan inForeign ("<!--".toList ++ (commentData kind body ++ close) ++ rest) =
      ([.comment (commentData kind body)], rest) := by
  have hopen := leavesOpen_commentData kind h
  have hdata := not_mem_commentData kind (.inl rfl) hnul
  obtain ⟨more, hmore⟩ := commentData_eq_cons kind body
  rw [hmore] at hopen hdata ⊢
  exact Html.scan_comment (by decide) (by decide) hclose hopen hdata inForeign rest

/-- Where the body closes the comment, the rest of the body is left over. -/
theorem scan_encode_append (inForeign : Bool) {before after : Text} (following : Text)
    (h : ¬bangClosing <:+: before) (hnul : '\x00' ∉ before ++ bangClosing ++ after)
    (hreturn : '\r' ∉ before ++ bangClosing ++ after) :
    scan inForeign (normalize (encode kind (before ++ bangClosing ++ after) ++ following)) =
      ([.comment (commentData kind before)],
        Text.replaceAll arrow arrowStandIn after ++ arrow ++ unifyLineEnds following) := by
  have hbefore : '\x00' ∉ before := fun hmem => hnul (by simp [hmem])
  have hscan := scan_commentData kind (mem_closers_iff.2 (.inr rfl)) h hbefore inForeign
    (Text.replaceAll arrow arrowStandIn after ++ arrow ++ unifyLineEnds following)
  rw [normalize_encode_append hreturn, encode, commentData_append, ← hscan]
  simp only [List.append_assoc]

/-- A structural comment is read as one comment with all of its text, and what follows it is left
over, exactly when its body has no `--!>`. Otherwise the comment ends at the first one, and what the
body has behind it is left over as well. -/
theorem scan_encode_iff (inForeign : Bool) (kind : CommentKind) {body : Text}
    (hnul : '\x00' ∉ body) (hreturn : '\r' ∉ body) (following : Text) :
    (scan inForeign (normalize (encode kind body ++ following)) =
        ([.comment (commentData kind body)], unifyLineEnds following) ↔ ¬"--!>".toList <:+: body) ∧
      ∀ before after, body = before ++ "--!>".toList ++ after → ¬"--!>".toList <:+: before →
        scan inForeign (normalize (encode kind body ++ following)) =
          ([.comment (commentData kind before)], Text.replaceAll arrow arrowStandIn after ++
            "-->".toList ++ unifyLineEnds following) := by
  have hcut : ∀ before after, body = before ++ bangClosing ++ after → ¬bangClosing <:+: before →
      scan inForeign (normalize (encode kind body ++ following)) =
        ([.comment (commentData kind before)],
          Text.replaceAll arrow arrowStandIn after ++ arrow ++ unifyLineEnds following) := by
    rintro before after rfl hfirst
    exact scan_encode_append inForeign following hfirst hnul hreturn
  refine ⟨⟨fun hwhole hfound => ?_, fun h => ?_⟩, hcut⟩
  · obtain ⟨before, after, hbody, hfirst⟩ : ∃ before after,
        body = before ++ bangClosing ++ after ∧ ¬bangClosing <:+: before :=
      Text.exists_first_of_isInfix (by decide) hfound
    have hdata : commentData kind before = commentData kind body := by
      have htokens := congrArg Prod.fst ((hcut before after hbody hfirst).symm.trans hwhole)
      exact Html.Token.comment.inj (List.cons.inj htokens).1
    have hlength := congrArg List.length hdata
    have hpos : 0 < bangClosing.length := by decide
    rw [hbody, commentData_append] at hlength
    simp only [List.length_append] at hlength
    omega
  · rw [normalize_encode_append hreturn, encode]
    exact scan_commentData kind (mem_closers_iff.2 (.inl rfl)) h hnul inForeign _

/-- Code that compares texts with the other closing, which the comment stops at. -/
def bangCode : Text :=
  "x('-->', '--!>', '-->')".toList

/-- The page goes on within such code. -/
theorem scan_encode_bangCode :
    scan false (normalize (encode .code bangCode ++ "<b>".toList)) =
      ([.comment "SLIM_CODE:x('__SLIM_ARROW__', '".toList],
        "', '__SLIM_ARROW__')--><b>".toList) := by
  have hnul : '\x00' ∉ bangCode := by decide
  have hreturn : '\r' ∉ bangCode := by decide
  obtain ⟨-, hcut⟩ := scan_encode_iff false .code hnul hreturn "<b>".toList
  exact hcut "x('-->', '".toList "', '-->')".toList (by decide) (by decide)

/-- So a comment can be closed by its own body. -/
theorem scan_encode_ne : scan false (normalize (encode .code "x('--!>')".toList ++ "y".toList)) ≠
    ([.comment (commentData .code "x('--!>')".toList)], "y".toList) := by
  decide

end SlimTemplate.Directive
