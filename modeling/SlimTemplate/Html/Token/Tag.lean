import SlimTemplate.Html.Reference
import SlimTemplate.Html.Token.Basic

/-!
# Tags and their attributes

A tag's name runs to white space, `/` or `>`. Attributes follow; a value stands after `=`, bare or
in quotes, and its character references are replaced. A stray `/` is skipped, and a tag that the
text leaves open is dropped with all that follows.

## Main definitions

* `Html.readValue?`: the value of an attribute.
* `Html.readAttributes?`: the attributes up to the end of a tag.
* `Html.scanTag?`: a whole tag after its `<` or `</`.
-/

namespace SlimTemplate.Html

/-- Names in tags are read in small letters. -/
def tagText (text : Text) : Text :=
  replaceNul (Text.toAsciiLower text)

/-- A value as meant: references replaced. -/
def valueText (text : Text) : Text :=
  Reference.decode true (replaceNul text)

/-- Whether a character ends a bare name in a tag. -/
def endsName (c : Char) : Bool :=
  isSpace c || c == '/' || c == '>'

/-- Whether a character ends the name of an attribute. -/
def endsAttributeName (c : Char) : Bool :=
  endsName c || c == '='

/-- Whether a character ends a value without quotes. -/
def endsBareValue (c : Char) : Bool :=
  isSpace c || c == '>'

/-- The value at the start of a text and what follows it, or nothing when a quote stays open. -/
def readValue? (text : Text) : Option (Text × Text) :=
  match text.dropWhile isSpace with
  | '"' :: rest =>
    if rest.contains '"' then
      some (valueText (rest.takeWhile (· ≠ '"')), (rest.dropWhile (· ≠ '"')).drop 1)
    else none
  | '\'' :: rest =>
    if rest.contains '\'' then
      some (valueText (rest.takeWhile (· ≠ '\'')), (rest.dropWhile (· ≠ '\'')).drop 1)
    else none
  | rest =>
    some (valueText (rest.takeWhile fun c => !endsBareValue c),
      rest.dropWhile fun c => !endsBareValue c)

theorem length_dropWhile_le (p : Char → Bool) (text : Text) :
    (text.dropWhile p).length ≤ text.length :=
  (List.dropWhile_sublist p).length_le

theorem length_readValue? {text value rest : Text} (h : readValue? text = some (value, rest)) :
    rest.length ≤ text.length := by
  have hs := length_dropWhile_le isSpace text
  unfold readValue? at h
  split at h
  · next r hr =>
    split at h
    · obtain ⟨-, rfl⟩ := Prod.mk.inj (Option.some.inj h)
      have := length_dropWhile_le (fun c => decide (c ≠ '"')) r
      simp only [hr, List.length_cons, List.length_drop] at *
      omega
    · simp at h
  · next r hr =>
    split at h
    · obtain ⟨-, rfl⟩ := Prod.mk.inj (Option.some.inj h)
      have := length_dropWhile_le (fun c => decide (c ≠ '\'')) r
      simp only [hr, List.length_cons, List.length_drop] at *
      omega
    · simp at h
  · obtain ⟨-, rfl⟩ := Prod.mk.inj (Option.some.inj h)
    exact Nat.le_trans (length_dropWhile_le _ _) hs

/-- The attribute that starts with the character `c`, and what follows it. -/
def readAttribute? (c : Char) (text : Text) : Option (Markup.Attribute × Text) :=
  let name := tagText (c :: text.takeWhile fun d => !endsAttributeName d)
  match (text.dropWhile fun d => !endsAttributeName d).dropWhile isSpace with
  | '=' :: rest => (readValue? rest).map fun (value, rest) => ((name, value), rest)
  | rest => some ((name, []), rest)

theorem length_readAttribute? {c : Char} {text rest : Text} {first : Markup.Attribute}
    (h : readAttribute? c text = some (first, rest)) : rest.length ≤ text.length := by
  have h1 := length_dropWhile_le isSpace (text.dropWhile fun d => !endsAttributeName d)
  have h2 := length_dropWhile_le (fun d => !endsAttributeName d) text
  unfold readAttribute? at h
  split at h
  · next r hr =>
    obtain ⟨⟨v, r'⟩, hv, heq⟩ := Option.map_eq_some_iff.1 h
    have h3 := length_readValue? hv
    simp only [Prod.mk.injEq] at heq
    obtain ⟨-, rfl⟩ := heq
    simp only [hr, List.length_cons] at h1
    omega
  · obtain ⟨-, rfl⟩ := Prod.mk.inj (Option.some.inj h)
    exact Nat.le_trans h1 h2

/-- The attributes in order up to the `>` that ends a tag, whether the tag ends in `/>`, and what
follows it. -/
def readAttributes? (text : Text) : Option (List Markup.Attribute × Bool × Text) :=
  match _hs : text.dropWhile isSpace with
  | [] => none
  | '>' :: rest => some ([], false, rest)
  | '/' :: '>' :: rest => some ([], true, rest)
  | '/' :: rest => readAttributes? rest
  | c :: rest =>
    match _hr : readAttribute? c rest with
    | none => none
    | some (first, after) =>
      (readAttributes? after).map fun (more, selfClosing, rest) =>
        (first :: more, selfClosing, rest)
termination_by text.length
decreasing_by
  · have := length_dropWhile_le isSpace text
    simp only [_hs, List.length_cons] at this
    omega
  · have h1 := length_dropWhile_le isSpace text
    have h2 := length_readAttribute? _hr
    simp only [_hs, List.length_cons] at h1
    omega

theorem length_readAttributes? {text rest : Text} {attributes : List Markup.Attribute}
    {selfClosing : Bool} (h : readAttributes? text = some (attributes, selfClosing, rest)) :
    rest.length < text.length := by
  fun_induction readAttributes? text generalizing attributes selfClosing rest with
  | case1 => simp at h
  | case2 text r hr =>
    obtain ⟨-, -, rfl⟩ := by simpa using h
    have := length_dropWhile_le isSpace text
    simp only [hr, List.length_cons] at this
    omega
  | case3 text r hr =>
    obtain ⟨-, -, rfl⟩ := by simpa using h
    have := length_dropWhile_le isSpace text
    simp only [hr, List.length_cons] at this
    omega
  | case4 text r _ hr ih =>
    have h1 := length_dropWhile_le isSpace text
    have h2 := ih h
    simp only [hr, List.length_cons] at h1
    omega
  | case5 => simp at h
  | case6 text c r _ _ _ hr first after h' ih =>
    obtain ⟨⟨m, s, r'⟩, hm, heq⟩ := Option.map_eq_some_iff.1 h
    simp only [Prod.mk.injEq] at heq
    obtain ⟨-, -, rfl⟩ := heq
    have h1 := length_dropWhile_le isSpace text
    have h2 := length_readAttribute? h'
    have h3 := ih hm
    simp only [hr, List.length_cons] at h1
    omega

/-- The attributes with only the first of each key, given the keys already seen. -/
def firstOfEachKey (seen : List Text) : List Markup.Attribute → List Markup.Attribute
  | [] => []
  | (key, value) :: more =>
    if seen.contains key then firstOfEachKey seen more
    else (key, value) :: firstOfEachKey (key :: seen) more

/-- Reads a tag after its `<` or `</`, and what follows it. A tag left open is no tag. -/
def scanTag? (kind : TagKind) (text : Text) : Option (Tag × Text) :=
  let name := tagText (text.takeWhile fun c => !endsName c)
  (readAttributes? (text.dropWhile fun c => !endsName c)).map
    fun (attributes, selfClosing, rest) =>
      (⟨kind, String.ofList name, firstOfEachKey [] attributes, selfClosing⟩, rest)

theorem length_scanTag? {kind : TagKind} {text rest : Text} {tag : Tag}
    (h : scanTag? kind text = some (tag, rest)) : rest.length < text.length := by
  obtain ⟨⟨a, s, r⟩, hr, heq⟩ := Option.map_eq_some_iff.1 h
  simp only [Prod.mk.injEq] at heq
  obtain ⟨-, rfl⟩ := heq
  exact Nat.lt_of_lt_of_le (length_readAttributes? hr) (length_dropWhile_le _ _)

end SlimTemplate.Html
