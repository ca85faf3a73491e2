import SlimTemplate.Proofs.Html.Kept
import SlimTemplate.Proofs.Html.Made
import SlimTemplate.Proofs.Text.Ascii
import SlimTemplate.Proofs.Writer.Break

/-!
# Names of elements

The name of a tag starts with a letter, and neither it nor a key has a line feed, since white space
ends both. The rules of construction create elements from tags only, or with names of their own, so
every element of the finished tree is named.

## Main definitions

* `Html.Scope.named`: the scope in which all elements are named.

## Main statements

* `Html.scan_isNamed`: the tags that are read are named.
* `Markup.Document.ofHtml_isProper`: all nodes of a document that is read are proper.
-/

namespace SlimTemplate.Html

open Markup (Element)

/-! ## Tags -/

/-- Whether an element of that name with these attributes would be named. -/
def IsNamed (name : String) (attributes : List Markup.Attribute) : Prop :=
  Element.IsNamed ⟨name.toList, attributes⟩

theorem lineFeed_not_mem_tagText {text : Text} (h : '\n' ∉ text) : '\n' ∉ tagText text := by
  intro hmem
  obtain ⟨c, hc, heq⟩ := List.mem_map.1 hmem
  split at heq
  · exact absurd heq (by decide)
  · obtain ⟨d, hd, rfl⟩ := List.mem_map.1 hc
    obtain rfl := Text.eq_of_toLower_eq (by decide) heq
    exact h hd

theorem tagText_cons_isAlpha {c : Char} (h : c.isAlpha = true) (text : Text) :
    ∃ d, tagText (c :: text) = d :: tagText text ∧ d.isAlpha = true := by
  have halpha := Text.isAlpha_toLower h
  refine ⟨c.toLower, ?_, halpha⟩
  have hne : c.toLower ≠ '\x00' := by
    intro heq
    rw [heq] at halpha
    exact absurd halpha (by decide)
  show (if c.toLower = '\x00' then _ else _) :: _ = _
  rw [if_neg hne]
  rfl

theorem lineFeed_not_mem_takeWhile {p : Char → Bool} (hp : p '\n' = false) (text : Text) :
    '\n' ∉ text.takeWhile p := by
  intro hmem
  rw [List.mem_takeWhile_imp hmem] at hp
  cases hp

theorem readAttribute?_key {c : Char} {text rest : Text} {first : Markup.Attribute}
    (hc : c ≠ '\n') (h : readAttribute? c text = some (first, rest)) : '\n' ∉ first.1 := by
  have hkey : '\n' ∉ tagText (c :: text.takeWhile fun d => !endsAttributeName d) := by
    refine lineFeed_not_mem_tagText fun hmem => ?_
    rcases List.mem_cons.1 hmem with heq | hmem
    · exact hc heq.symm
    · exact lineFeed_not_mem_takeWhile (by decide) text hmem
  unfold readAttribute? at h
  split at h
  · obtain ⟨⟨value, after⟩, -, heq⟩ := Option.map_eq_some_iff.1 h
    obtain ⟨rfl, -⟩ := Prod.mk.inj heq
    exact hkey
  · obtain ⟨rfl, -⟩ := Prod.mk.inj (Option.some.inj h)
    exact hkey

theorem head_dropWhile_ne {text rest : Text} {c : Char}
    (h : text.dropWhile isSpace = c :: rest) : c ≠ '\n' := by
  rintro rfl
  have hspace := List.head_dropWhile_not isSpace (l := text) (by rw [h]; exact List.cons_ne_nil _ _)
  simp only [h, List.head_cons] at hspace
  exact absurd hspace (by decide)

/-- No key of a tag has a line feed. -/
theorem readAttributes?_keys {text rest : Text} {attributes : List Markup.Attribute}
    {selfClosing : Bool} (h : readAttributes? text = some (attributes, selfClosing, rest)) :
    ∀ pair ∈ attributes, '\n' ∉ pair.1 := by
  fun_induction readAttributes? text generalizing attributes selfClosing rest with
  | case1 => cases h
  | case2 =>
    obtain ⟨rfl, -⟩ := Prod.mk.inj (Option.some.inj h)
    simp
  | case3 =>
    obtain ⟨rfl, -⟩ := Prod.mk.inj (Option.some.inj h)
    simp
  | case4 text r _ hr ih => exact ih h
  | case5 => cases h
  | case6 text c r _ _ _ hr first after hfirst ih =>
    obtain ⟨⟨more, s, r'⟩, hmore, heq⟩ := Option.map_eq_some_iff.1 h
    obtain ⟨rfl, -⟩ := Prod.mk.inj heq
    refine List.forall_mem_cons.2 ⟨?_, ih hmore⟩
    exact readAttribute?_key (head_dropWhile_ne hr) hfirst

theorem mem_of_mem_firstOfEachKey {seen : List Text} {attributes : List Markup.Attribute}
    {pair : Markup.Attribute} (h : pair ∈ firstOfEachKey seen attributes) : pair ∈ attributes := by
  fun_induction firstOfEachKey seen attributes with
  | case1 => exact h
  | case2 _ _ _ _ _ ih => exact List.mem_cons_of_mem _ (ih h)
  | case3 _ _ _ _ _ ih =>
    rcases List.mem_cons.1 h with rfl | h
    · exact List.mem_cons_self
    · exact List.mem_cons_of_mem _ (ih h)

theorem endsName_eq_false {c : Char} (h : c.isAlpha = true) : endsName c = false := by
  rw [← Bool.not_eq_true]
  intro hends
  simp only [endsName, isSpace, Bool.or_eq_true, beq_iff_eq] at hends
  rcases hends with ((((((rfl | rfl) | rfl) | rfl) | rfl) | rfl) | rfl) <;> exact absurd h (by decide)

theorem takeWhile_name_eq {c : Char} (h : c.isAlpha = true) (text : Text) :
    (c :: text).takeWhile (fun d => !endsName d) = c :: text.takeWhile fun d => !endsName d := by
  rw [List.takeWhile_cons, endsName_eq_false h]
  rfl

/-- A tag that begins with a letter is named. -/
theorem scanTag?_isNamed {kind : TagKind} {c : Char} {text rest : Text} {tag : Tag}
    (hc : c.isAlpha = true) (h : scanTag? kind (c :: text) = some (tag, rest)) :
    IsNamed tag.name tag.attributes := by
  obtain ⟨⟨attributes, selfClosing, after⟩, hread, heq⟩ := Option.map_eq_some_iff.1 h
  obtain ⟨rfl, -⟩ := Prod.mk.inj heq
  have hname : '\n' ∉ (c :: text).takeWhile fun d => !endsName d :=
    lineFeed_not_mem_takeWhile (by decide) _
  refine ⟨?_, ?_, ?_⟩
  · rw [String.toList_ofList, takeWhile_name_eq hc text]
    obtain ⟨d, heq, hd⟩ := tagText_cons_isAlpha hc (text.takeWhile fun d => !endsName d)
    exact ⟨d, _, heq, hd⟩
  · rw [String.toList_ofList]
    exact lineFeed_not_mem_tagText hname
  · intro pair hpair
    exact readAttributes?_keys hread pair (mem_of_mem_firstOfEachKey hpair)

/-! ## Tokens -/

/-- Whether a token is no tag, or one that is named. -/
def Token.IsNamed : Token → Prop
  | .tag t => Html.IsNamed t.name t.attributes
  | _ => True

theorem chars_isNamed {text : Text} {token : Token} (h : token ∈ chars text) : token.IsNamed := by
  obtain ⟨c, -, rfl⟩ := List.mem_map.1 h
  trivial

theorem charsMeant_isNamed {text : Text} {token : Token} (h : token ∈ charsMeant text) :
    token.IsNamed := by
  obtain ⟨piece, -, hpiece⟩ := List.mem_flatMap.1 h
  unfold pieceTokens at hpiece
  split at hpiece
  · obtain rfl := List.mem_singleton.1 hpiece
    trivial
  · split at hpiece
    · exact chars_isNamed hpiece
    · rcases List.mem_cons.1 hpiece with rfl | hpiece
      · trivial
      · exact chars_isNamed hpiece

theorem scanRaw_isNamed {kind : RawKind} {name text : Text} {token : Token}
    (h : token ∈ (scanRaw kind name text).1) : token.IsNamed := by
  simp only [scanRaw, rawTokens.eq_def] at h
  split at h
  · exact charsMeant_isNamed h
  · exact chars_isNamed h

theorem tagToken_isNamed {kind : TagKind} {c : Char} {text : Text} {token : Token}
    (hc : c.isAlpha = true) (h : token ∈ (tagToken kind (c :: text)).1) : token.IsNamed := by
  unfold tagToken at h
  split at h
  · next hscan =>
    obtain rfl := List.mem_singleton.1 h
    exact scanTag?_isNamed hc hscan
  · exact absurd h List.not_mem_nil

theorem commentToken_isNamed {read : Text × Text} {token : Token}
    (h : token ∈ (commentToken read).1) : token.IsNamed := by
  obtain rfl := List.mem_singleton.1 h
  trivial

theorem scanDeclaration_isNamed {inForeign : Bool} {text : Text} {token : Token}
    (h : token ∈ (scanDeclaration inForeign text).1) : token.IsNamed := by
  unfold scanDeclaration at h
  split at h
  · exact commentToken_isNamed h
  · split at h
    · obtain rfl := List.mem_singleton.1 h
      trivial
    · split at h
      · split at h
        · exact chars_isNamed h
        · exact chars_isNamed h
      · exact commentToken_isNamed h

theorem scanMarkup_isNamed {inForeign : Bool} {text : Text} {token : Token}
    (h : token ∈ (scanMarkup inForeign text).1) : token.IsNamed := by
  unfold scanMarkup at h
  split at h
  · exact chars_isNamed h
  · exact scanDeclaration_isNamed h
  · unfold scanEndTag at h
    split at h
    · exact chars_isNamed h
    · obtain rfl := List.mem_singleton.1 h
      trivial
    · split at h
      · next hc => exact tagToken_isNamed hc h
      · exact commentToken_isNamed h
  · exact commentToken_isNamed h
  · split at h
    · next hc => exact tagToken_isNamed hc h
    · exact chars_isNamed h

/-- The tags that are read are named. -/
theorem scan_isNamed {inForeign : Bool} {text : Text} {token : Token}
    (h : token ∈ (scan inForeign text).1) : token.IsNamed := by
  unfold scan at h
  split at h
  · exact absurd h List.not_mem_nil
  · split at h
    · exact scanMarkup_isNamed h
    · exact charsMeant_isNamed h

/-! ## Elements -/

/-- Whether the name of an element that is created, and its keys, are those of a named element. -/
def Name.IsNamed (name : Name) (attributes : List Markup.Attribute) : Prop :=
  Html.IsNamed name.local attributes

/-- The scope in which all elements are named. -/
def Scope.named : Scope where
  makes := Name.IsNamed
  opensForeign _ := True
  entersForeign := True
  enters _ := True
  holdsRaw := True
  dropsBody := True
  enters_of_isInside _ _ := trivial

theorem isNamed_nil {name : String} (h : Html.IsNamed name []) {attributes : List Markup.Attribute}
    (hkeys : ∀ pair ∈ attributes, '\n' ∉ pair.1) : Html.IsNamed name attributes :=
  ⟨h.name_eq, h.not_mem_name, hkeys⟩

/-- A name that begins with a letter and has no line feed. -/
theorem isNamed_of_decide {name : String}
    (h : (name.toList.head?.any Char.isAlpha && !name.toList.contains '\n') = true) :
    Html.IsNamed name [] := by
  rw [Bool.and_eq_true, Bool.not_eq_true', List.contains_eq_mem, decide_eq_false_iff_not] at h
  obtain ⟨hhead, hlf⟩ := h
  cases hname : name.toList with
  | nil =>
    rw [hname] at hhead
    cases hhead
  | cons c rest =>
    rw [hname] at hhead
    exact ⟨⟨c, rest, hname, hhead⟩, hlf, by simp⟩

theorem mem_of_lookup {α β : Type} [BEq α] [LawfulBEq α] {key : α} {value : β}
    {entries : List (α × β)} (h : entries.lookup key = some value) : (key, value) ∈ entries := by
  obtain ⟨before, after, rfl, -⟩ := List.lookup_eq_some_iff.1 h
  exact List.mem_append_right _ List.mem_cons_self

theorem svgTagName_isNamed {name : String} (h : Html.IsNamed name []) :
    Html.IsNamed (svgTagName name) [] := by
  rw [svgTagName]
  cases hlookup : svgTagNames.lookup name with
  | none => exact h
  | some spelled =>
    have hall : ∀ entry ∈ svgTagNames,
        (entry.2.toList.head?.any Char.isAlpha && !entry.2.toList.contains '\n') = true := by
      decide +kernel
    exact isNamed_of_decide (hall _ (mem_of_lookup hlookup))

theorem lineFeed_not_mem_svgAttributeName {key : Text} (h : '\n' ∉ key) :
    '\n' ∉ svgAttributeName key := by
  rw [svgAttributeName]
  cases hlookup : svgAttributeNames.lookup key with
  | none => exact h
  | some spelled =>
    have hall : ∀ entry ∈ svgAttributeNames, '\n' ∉ entry.2 := by decide +kernel
    exact hall _ (mem_of_lookup hlookup)

theorem lineFeed_not_mem_mathAttributeName {key : Text} (h : '\n' ∉ key) :
    '\n' ∉ mathAttributeName key := by
  rw [mathAttributeName]
  split
  · decide
  · exact h

theorem lineFeed_not_mem_foreignAttributeName {key : Text} (h : '\n' ∉ key) :
    '\n' ∉ foreignAttributeName key := by
  rw [foreignAttributeName]
  split
  · decide
  · exact h

/-- The spelling of a vocabulary keeps tags named. -/
theorem respell_isNamed (space : Space) {tag : Tag} (h : Html.IsNamed tag.name tag.attributes) :
    Html.IsNamed (Builder.respell space tag).name (Builder.respell space tag).attributes ∧
      Html.IsNamed tag.name (Builder.respell space tag).attributes := by
  have hname : Html.IsNamed tag.name [] := ⟨h.name_eq, h.not_mem_name, by simp⟩
  have hmap : ∀ f : Text → Text, (∀ key, '\n' ∉ key → '\n' ∉ f key) →
      ∀ pair ∈ tag.attributes.map fun pair => (f pair.1, pair.2), '\n' ∉ pair.1 := by
    intro f hf pair hpair
    obtain ⟨old, hold, rfl⟩ := List.mem_map.1 hpair
    exact hf _ (h.not_mem_key old hold)
  cases space with
  | html => exact ⟨h, h⟩
  | svg =>
    have hkeys := hmap (foreignAttributeName ∘ svgAttributeName) fun key hkey =>
      lineFeed_not_mem_foreignAttributeName (lineFeed_not_mem_svgAttributeName hkey)
    exact ⟨isNamed_nil (svgTagName_isNamed hname) hkeys, isNamed_nil hname hkeys⟩
  | mathml =>
    have hkeys := hmap (foreignAttributeName ∘ mathAttributeName) fun key hkey =>
      lineFeed_not_mem_foreignAttributeName (lineFeed_not_mem_mathAttributeName hkey)
    exact ⟨isNamed_nil hname hkeys, isNamed_nil hname hkeys⟩

theorem named_merges {more : List Markup.Attribute} (h : ∀ pair ∈ more, '\n' ∉ pair.1) :
    Scope.named.Merges more := by
  intro name attributes some hname hsome
  refine isNamed_nil ⟨hname.name_eq, hname.not_mem_name, by simp⟩ fun pair hpair => ?_
  exact (List.mem_append.1 hpair).elim (hname.not_mem_key pair) fun hmem =>
    h pair (hsome.subset hmem)

theorem named_allowsStart {tag : Tag} (h : Html.IsNamed tag.name tag.attributes) :
    Scope.named.AllowsStart tag where
  makes := h
  merges _ := named_merges h.not_mem_key
  image _ := isNamed_nil (isNamed_of_decide (by decide)) h.not_mem_key
  foreign space _ name hname := by
    rcases hname with rfl | rfl
    · exact ⟨(respell_isNamed space h).2, fun _ => trivial⟩
    · exact ⟨(respell_isNamed space h).1, fun _ => trivial⟩
  entersForeign _ := trivial
  around _ := ⟨isNamed_of_decide (by decide), isNamed_of_decide (by decide),
    isNamed_of_decide (by decide)⟩
  raw _ := ⟨trivial, trivial⟩
  frameset _ := trivial

theorem isImplied_isNamed {name : String} (h : isImplied name = true) : Html.IsNamed name [] := by
  unfold isImplied at h
  split at h
  · exact isNamed_of_decide (by decide)
  · exact isNamed_of_decide (by decide)
  · exact isNamed_of_decide (by decide)
  · exact isNamed_of_decide (by decide)
  · exact isNamed_of_decide (by decide)
  · cases h

/-- Whatever is read is allowed where all elements are named. -/
theorem Token.IsNamed.allows {token : Token} (h : token.IsNamed) : Scope.named.Allows token where
  implied _ hname := isImplied_isNamed hname
  start tag heq _ := by
    subst heq
    exact named_allowsStart h
  stop _ _ _ _ _ _ := trivial

theorem named_allowsAll : Scope.named.AllowsAll where
  scan _ _ _ h := (scan_isNamed h).allows
  scanRaw _ _ _ _ h := (scanRaw_isNamed h).allows
  stop := Token.IsNamed.allows (show Token.IsNamed .stop from trivial)

/-- Every element of the tree of a text is named. -/
theorem build_isMadeIn (text : Text) : (build text).arena.IsMadeIn Scope.named := by
  obtain ⟨datas, hcourse⟩ :=
    Course.start.run_some named_allowsAll (start_fits Scope.named) (normalize text)
  exact hcourse.isMadeIn Arena.isMadeIn_empty

/-! ## Nodes -/

open Markup (Node nodesProper nodesProper_iff)

theorem ofMarker_isProper {value : Text} {children : List Node} (h : nodesProper children) :
    (Node.ofMarker value children).IsProper := by
  unfold Node.ofMarker
  split
  · exact ⟨Text.trim_trim _, h⟩
  · exact ⟨Text.trim_trim _, h⟩

theorem elementNode_isProper {name : Name} {attributes : List Markup.Attribute}
    {children : List Node} (hname : name.IsNamed attributes) (h : nodesProper children) :
    (Arena.elementNode name attributes children).IsProper := by
  unfold Arena.elementNode
  split
  · exact ofMarker_isProper h
  · exact ⟨hname, h⟩

theorem toNodes_isProper {a : Arena} (h : a.IsMadeIn Scope.named) (depth : Nat) (id : CellId) :
    nodesProper (a.toNodes depth id) := by
  induction depth generalizing id with
  | zero => trivial
  | succ depth ih =>
    rw [nodesProper_iff]
    intro node hnode
    rcases Arena.mem_toNodes_succ hnode with
      ⟨c, name, attributes, contents, hcontent, rfl⟩ | ⟨content, rfl | rfl⟩
    · exact elementNode_isProper (h c name attributes contents hcontent) (ih _)
    · trivial
    · trivial

end SlimTemplate.Html

namespace SlimTemplate.Markup

theorem Node.IsProper.children (name : Text) (attributes : List Attribute) (children : List Node)
    (h : (Node.element name attributes children).IsProper) : ∀ child ∈ children, child.IsProper :=
  nodesProper_iff.1 h.2

/-- All nodes of a document that is read are proper. -/
theorem Document.ofHtml_isProper (source : Text) : nodesProper (Document.ofHtml source).nodes := by
  have hparse : ∀ text, nodesProper (Html.parse text) := fun text =>
    Html.toNodes_isProper (Html.build_isMadeIn text) _ _
  simp only [Document.ofHtml, nodesProper_iff] at hparse ⊢
  split
  · exact fun node hnode => hparse _ node (rootOnly_subset _ hnode)
  · exact forall_mem_dissolveRoot Node.IsProper.children (hparse _)

end SlimTemplate.Markup
