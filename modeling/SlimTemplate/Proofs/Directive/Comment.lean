import SlimTemplate.Proofs.Text.Number
import SlimTemplate.Proofs.Text.Replace
import SlimTemplate.Proofs.Writer.Shape

/-!
# Structural comments taken apart again

What a structural comment holds is the label of its kind, which ends in a colon, and the body with
a stand-in for every `-->`. The label begins with a letter and the stand-in ends in an underscore,
so nothing is trimmed off, and a request for deeper indentation is found only where the body ends
in one. So the comment is taken apart into the kind and the body that it was made from.

## Main definitions

* `Directive.IsRestorable`: a body that comes out of a comment as it went in.

## Main statements

* `Directive.decode_commentData`: what a comment is taken apart into.
* `Directive.decode_encode`: a restorable body comes back, with the indentation that was asked for.
-/

namespace SlimTemplate.Directive

variable {kind : CommentKind} {body : Text}

/-! ## The arrow and its stand-in -/

theorem arrow_ne_nil : arrow ≠ [] := by decide

/-- The arrow and its stand-in have no character in common. -/
theorem not_mem_arrow_of_mem_standIn : ∀ c ∈ arrowStandIn, c ∉ arrow :=
  Text.forall_of_all (by decide)

theorem getLast?_arrowStandIn : arrowStandIn.getLast? = some '_' := by decide

/-- The text of a comment cannot close the comment by an arrow. -/
theorem not_isInfix_arrow_commentData (kind : CommentKind) (body : Text) :
    ¬arrow <:+: commentData kind body := by
  have hlabel : ∀ c ∈ kind.label, c ∉ arrow := by
    cases kind <;> exact Text.forall_of_all (by decide)
  rw [commentData, Text.isInfix_append_left_iff arrow_ne_nil hlabel]
  exact Text.not_isInfix_replaceAll arrow_ne_nil (by decide) not_mem_arrow_of_mem_standIn body

/-- The stand-in without the underscores at its end. -/
def standInCore : Text :=
  "__SLIM_ARROW".toList

/-- Where one stand-in goes on in another, they have the underscores at an end in common. -/
theorem length_standInCore_le {k : Nat} (hk : 0 < k) (hlt : k < arrowStandIn.length)
    (h : arrowStandIn.drop k <+: arrowStandIn) : standInCore.length ≤ k := by
  have hall : ∀ i : Fin 14, i ≠ 0 → arrowStandIn.drop i <+: arrowStandIn →
      standInCore.length ≤ i := by
    decide
  exact hall ⟨k, hlt⟩ (by simp [Fin.ext_iff, hk.ne']) h

/-- The arrows of a body are restored. -/
theorem replaceAll_standIn_arrow (h : ¬standInCore <:+: body) :
    Text.replaceAll arrowStandIn arrow (Text.replaceAll arrow arrowStandIn body) = body :=
  Text.replaceAll_replaceAll arrow_ne_nil (by decide) (fun _ => length_standInCore_le) (by decide) h

/-! ## The ends of a comment -/

/-- The label of a comment with a body ends in a colon, the only one in it. -/
theorem label_eq_append_colon (hkind : kind ≠ .stop) :
    ∃ name, kind.label = name ++ [':'] ∧ ':' ∉ name := by
  have hlast : kind.label = kind.label.dropLast ++ [':'] ∧ ':' ∉ kind.label.dropLast := by
    cases kind with
    | stop => exact absurd rfl hkind
    | _ => decide
  exact ⟨_, hlast⟩

/-- The text of a comment begins with a letter. -/
theorem commentData_eq_cons (kind : CommentKind) (body : Text) :
    ∃ rest, commentData kind body = 'S' :: rest := by
  cases kind <;> exact ⟨_, rfl⟩

/-- So it is trimmed at its end only, whatever is asked for there. -/
theorem trim_commentData_append {request : Text}
    (hlast : ∀ c ∈ (commentData kind body ++ request).getLast?, Text.isBlank c = false) :
    Text.trim (commentData kind body ++ request) = commentData kind body ++ request := by
  obtain ⟨rest, hrest⟩ := commentData_eq_cons kind body
  refine Text.trim_eq_self (fun c hc => ?_) hlast
  rw [hrest] at hc
  obtain rfl : 'S' = c := Option.some.inj hc
  decide

/-- The text of a comment ends in a blank only if the body does. -/
theorem getLast?_commentData_not_isBlank (hlast : ∀ c ∈ body.getLast?, Text.isBlank c = false) :
    ∀ c ∈ (commentData kind body).getLast?, Text.isBlank c = false := by
  intro c hc
  rw [commentData, List.getLast?_append, Option.mem_def, Option.or_eq_some_iff] at hc
  rcases hc with hc | ⟨-, hc⟩
  · by_cases hunderscore : c = '_'
    · rw [hunderscore]
      decide
    · obtain ⟨before, hbefore⟩ := List.getLast?_eq_some_iff.1 hc
      have hsuffix : [c] <:+ body :=
        Text.isSuffix_of_isSuffix_replaceAll arrow_ne_nil getLast?_arrowStandIn
          (by simpa using Ne.symm hunderscore) ⟨before, hbefore.symm⟩
      obtain ⟨start, rfl⟩ := hsuffix
      exact hlast c (by rw [List.getLast?_concat]; rfl)
  · have hlabel : ∀ d ∈ kind.label, Text.isBlank d = false := by
      cases kind <;> exact Text.isBlank_eq_false_of_all (by decide)
    exact hlabel c (List.mem_of_getLast? hc)

theorem trim_commentData (hlast : ∀ c ∈ body.getLast?, Text.isBlank c = false) :
    Text.trim (commentData kind body) = commentData kind body := by
  rw [← List.append_nil (commentData kind body)]
  refine trim_commentData_append fun c hc => ?_
  rw [List.append_nil] at hc
  exact getLast?_commentData_not_isBlank hlast c hc

/-! ## Requests for deeper indentation -/

theorem trim_colon_cons (hlast : ∀ c ∈ body.getLast?, Text.isBlank c = false) :
    Text.trim (':' :: body) = ':' :: body := by
  rw [Text.trim_cons_of_not_isBlank (by decide), Text.trimEnd_eq_self hlast]

theorem underscore_not_mem_indent {digits : Text}
    (hdigits : ∀ c ∈ digits, Text.isDecimalDigit c = true) : '_' ∉ indentLabel ++ digits := by
  rw [List.mem_append, not_or]
  refine ⟨by decide, fun hmem => ?_⟩
  exact absurd (hdigits '_' hmem) (by decide)

/-- A comment ends in a request only if its body does, behind the colon of the label. -/
theorem not_endsInIndent_commentData (hkind : kind ≠ .stop)
    (hlast : ∀ c ∈ body.getLast?, Text.isBlank c = false) (h : ¬EndsInIndent (':' :: body)) :
    ¬EndsInIndent (commentData kind body) := by
  rintro ⟨before, digits, htrim, hne, hdigits⟩
  obtain ⟨name, hlabel, hcolon⟩ := label_eq_append_colon hkind
  have hreplaced : ':' :: Text.replaceAll arrow arrowStandIn body =
      Text.replaceAll arrow arrowStandIn (':' :: body) := by
    rw [Text.replaceAll_cons]
    intro hbegins
    exact absurd (List.cons_prefix_cons.1 hbegins).1 (by decide)
  rw [trim_commentData hlast, commentData, hlabel, List.append_assoc, List.singleton_append,
    hreplaced, List.append_assoc] at htrim
  -- The name of the kind has no colon, so the request begins behind it.
  have hrequest : indentLabel ++ digits <:+ Text.replaceAll arrow arrowStandIn (':' :: body) := by
    rcases List.append_eq_append_iff.1 htrim with ⟨more, -, hmore⟩ | ⟨more, hname, hmore⟩
    · exact ⟨more, hmore.symm⟩
    · cases more with
      | nil => exact hmore ▸ List.suffix_rfl
      | cons c more =>
        obtain rfl : ':' = c := (List.cons.inj hmore).1
        rw [hname] at hcolon
        exact absurd (List.mem_append_right before List.mem_cons_self) hcolon
  obtain ⟨start, hstart⟩ := Text.isSuffix_of_isSuffix_replaceAll arrow_ne_nil getLast?_arrowStandIn
    (underscore_not_mem_indent hdigits) hrequest
  exact h ⟨start, digits, by rw [trim_colon_cons hlast, List.append_assoc, hstart], hne, hdigits⟩

/-- A request is cut off, and its number read. -/
theorem cutIndent_append (text : Text) {digits : Text} (hne : digits ≠ [])
    (hdigits : ∀ c ∈ digits, Text.isDecimalDigit c = true) :
    cutIndent (text ++ indentLabel ++ digits) = (text, (Text.readSize? digits).getD 0) := by
  obtain ⟨start, hstart⟩ : ∃ start, text ++ indentLabel = start ++ [':'] :=
    ⟨text ++ ":INDENT".toList, by rw [List.append_assoc]; rfl⟩
  have hreverse : (text ++ indentLabel ++ digits).reverse =
      digits.reverse ++ ':' :: start.reverse := by
    rw [hstart]
    simp
  have hall : ∀ c ∈ digits.reverse, Text.isDecimalDigit c = true :=
    fun c hc => hdigits c (List.mem_reverse.1 hc)
  have htake : (text ++ indentLabel ++ digits).reverse.takeWhile Text.isDecimalDigit =
      digits.reverse := by
    rw [hreverse, Text.takeWhile_append_cons_of_neg (by decide), List.takeWhile_eq_self_iff.2 hall]
  have hdrop : (text ++ indentLabel ++ digits).reverse.dropWhile Text.isDecimalDigit =
      (text ++ indentLabel).reverse := by
    rw [hreverse, Text.dropWhile_append_cons_of_neg (by decide), List.dropWhile_eq_nil_iff.2 hall,
      hstart]
    simp
  have hsuffix : Text.hasSuffix indentLabel (text ++ indentLabel) = true :=
    Text.hasSuffix_iff.2 (List.suffix_append text indentLabel)
  have hempty : digits.isEmpty = false := List.isEmpty_eq_false_iff.2 hne
  simp only [cutIndent, htake, hdrop, List.reverse_reverse, hempty, hsuffix, List.length_append,
    Nat.add_sub_cancel, List.take_left]
  rfl

/-! ## Whole comments -/

theorem findKind?_commentData (hkind : kind ≠ .stop) (body : Text) :
    findKind? (commentData kind body) = some (kind, Text.replaceAll arrow arrowStandIn body) := by
  cases kind with
  | stop => exact absurd rfl hkind
  | _ => rfl

/-- A comment whose body asks for no deeper indentation is taken apart into its kind and its body,
but for what the body spelled of the stand-in. -/
theorem decode_commentData (hkind : kind ≠ .stop)
    (hlast : ∀ c ∈ body.getLast?, Text.isBlank c = false) (h : ¬EndsInIndent (':' :: body)) :
    decode (commentData kind body) =
      ⟨some kind, Text.replaceAll arrowStandIn arrow (Text.replaceAll arrow arrowStandIn body),
        0⟩ := by
  have hcut := cutIndent_of_not_endsInIndent (not_endsInIndent_commentData hkind hlast h)
  rw [trim_commentData hlast] at hcut
  simp only [decode, trim_commentData hlast, hcut, findKind?_commentData hkind]

/-- A comment with a request for deeper indentation behind its body. -/
theorem decode_commentData_indent (hkind : kind ≠ .stop) (body : Text) {n : Nat}
    (hn : n ≤ Text.maxSize) :
    decode (commentData kind body ++ indentLabel ++ Text.ofNat n) =
      ⟨some kind, Text.replaceAll arrowStandIn arrow (Text.replaceAll arrow arrowStandIn body),
        n⟩ := by
  have hdigits : ∀ c ∈ Text.ofNat n, Text.isDecimalDigit c = true :=
    fun c hc => Text.isDecimalDigit_of_isDigit (Text.isDigit_of_mem_ofNat hc)
  have hne : Text.ofNat n ≠ [] := Nat.toDigits_ne_nil
  have htrim : Text.trim (commentData kind body ++ indentLabel ++ Text.ofNat n) =
      commentData kind body ++ indentLabel ++ Text.ofNat n := by
    rw [List.append_assoc]
    refine trim_commentData_append fun c hc => ?_
    rw [← List.append_assoc, List.getLast?_append_of_ne_nil _ hne] at hc
    exact Text.isBlank_eq_false_of_isDecimalDigit (hdigits c (List.mem_of_getLast? hc))
  simp only [decode, htrim, cutIndent_append _ hne hdigits, findKind?_commentData hkind,
    Text.readSize?_ofNat hn, Option.getD_some]

/-- A body that comes out of a comment as it went in: it does not end in a blank, spells no
stand-in up to the underscores at its end, and does not end in a request for deeper indentation,
for which the colon of the label counts as well. -/
structure IsRestorable (body : Text) : Prop where
  last : ∀ c ∈ body.getLast?, Text.isBlank c = false
  not_standIn : ¬"__SLIM_ARROW".toList <:+: body
  not_endsInIndent : ¬EndsInIndent (':' :: body)

/-- A restorable body comes out of the text of a comment. -/
theorem IsRestorable.decode_eq (h : IsRestorable body) (hkind : kind ≠ .stop) :
    decode (commentData kind body) = ⟨some kind, body, 0⟩ := by
  rw [decode_commentData hkind h.last h.not_endsInIndent, replaceAll_standIn_arrow h.not_standIn]

/-- The text within an encoded comment closes no comment by an arrow, and is taken apart into the
kind and the body that were encoded, with the indentation that is asked for behind it. -/
theorem decode_encode (hkind : kind ≠ .stop) (h : IsRestorable body) :
    ∃ data, encode kind body = "<!--".toList ++ data ++ "-->".toList ∧
      ¬"-->".toList <:+: data ∧ decode data = ⟨some kind, body, 0⟩ ∧
      ∀ n ≤ Text.maxSize,
        decode (data ++ ":INDENT:".toList ++ Text.ofNat n) = ⟨some kind, body, n⟩ := by
  refine ⟨commentData kind body, rfl, not_isInfix_arrow_commentData kind body, h.decode_eq hkind,
    fun n hn => ?_⟩
  refine (decode_commentData_indent hkind body hn).trans ?_
  rw [replaceAll_standIn_arrow h.not_standIn]

/-- Code with overlapping arrows, and with an underscore and the end of a stand-in behind one. -/
def arrowsCode : Text :=
  " f(a--->b, '_-->SLIM_ARROW__') if x > 0 --".toList

/-- Such code comes back, at its place and three levels deeper. -/
theorem decode_encode_arrowsCode : ∃ data,
    encode .code arrowsCode = "<!--".toList ++ data ++ "-->".toList ∧
      decode data = ⟨some .code, arrowsCode, 0⟩ ∧
      decode (data ++ ":INDENT:".toList ++ Text.ofNat 3) = ⟨some .code, arrowsCode, 3⟩ := by
  have hlast : ∀ c ∈ arrowsCode.getLast?, Text.isBlank c = false := by
    intro c hc
    obtain rfl : '-' = c := Option.some.inj hc
    decide
  have h : IsRestorable arrowsCode := ⟨hlast, by decide, not_endsInIndent (by decide)⟩
  have hkind : CommentKind.code ≠ .stop := by decide
  obtain ⟨data, hdata, -, hdecode, hindent⟩ := decode_encode hkind h
  exact ⟨data, hdata, hdecode, hindent 3 (by decide)⟩

end SlimTemplate.Directive
