import SlimTemplate.Conversion
import SlimTemplate.Proofs.Html.OneTag
import SlimTemplate.Proofs.Html.Reads
import SlimTemplate.Proofs.Text.Search
import SlimTemplate.Proofs.Writer.Owner

/-!
# Attribute values with directives

A start tag with directives in its values is read with its attributes as written, as long as no
directive has the quote of its value. One that has it ends the value for the reader of HTML, and
what follows becomes further attributes.

## Main statements

* `Markup.Document.ofHtml_startTag`: the element of a start tag has the attributes as written.
* `Markup.Document.ofHtml_quotedLink`: a directive with the quote of its value is torn apart.
-/

namespace SlimTemplate

/-! ## What is read before the tags -/

theorem Doctype.read?_eq_none {text : Text} (h : ¬keyword <:+: Text.toAsciiLower text) :
    read? text = none := by
  rw [read?, if_neg]
  intro heq
  refine h (List.IsPrefix.isInfix ?_)
  rw [← heq]
  exact (List.take_prefix _ text).map _

/-- A text without a declaration is left as it is. -/
theorem Doctype.strip_eq {text : Text} (h : ¬keyword <:+: Text.toAsciiLower text) :
    strip text = (none, text) := by
  induction text with
  | nil => rfl
  | cons c text ih =>
    have hrest : ¬keyword <:+: Text.toAsciiLower text := mt List.infix_cons h
    rw [strip, read?_eq_none h, ih hrest]

namespace Html

open Markup (Attribute)

/-- A text that begins with a tag and has no carriage return is read as it is. -/
theorem normalize_eq {text : Text} (hhead : text.head? = some '<') (h : '\r' ∉ text) :
    normalize text = text := by
  obtain ⟨rest, rfl⟩ := List.head?_eq_some_iff.1 hhead
  exact unifyLineEnds_eq h

variable {t : WrittenTag}

theorem WrittenTag.IsReadable.carriageReturn_not_mem (h : t.IsReadable) : '\r' ∉ t.source := by
  have hgap : ∀ {gap : Text}, IsGap gap → '\r' ∉ gap := fun hgap hmem => (hgap _ hmem).2 rfl
  have hname : '\r' ∉ t.name := by
    rw [WrittenTag.name, List.mem_cons, not_or]
    refine ⟨fun heq => ?_, fun hmem => absurd (h.more _ hmem).1 (by decide)⟩
    have hfirst := h.first
    rw [← heq] at hfirst
    exact absurd hfirst (by decide)
  have hattribute : ∀ a ∈ t.attributes, '\r' ∉ a.source := by
    intro a ha
    have hreadable := h.attributes a ha
    have hquote : '\r' ≠ a.quote := by
      rcases hreadable.quote with heq | heq <;> rw [heq] <;> decide
    simp only [WrittenAttribute.source, List.mem_append, List.mem_cons, List.not_mem_nil, or_false,
      not_or]
    exact ⟨hgap hreadable.gap, fun hmem => absurd (hreadable.key _ hmem).1 (by decide), by decide,
      hquote, fun hmem => (hreadable.content_isValueChar _ hmem).2.2.1 rfl, hquote⟩
  have hending : '\r' ∉ t.ending := by
    rw [WrittenTag.ending, List.mem_append, not_or]
    refine ⟨hgap h.gap, ?_⟩
    split <;> decide
  rw [WrittenTag.source, List.cons_append, List.mem_cons, List.mem_append, List.mem_append,
    List.mem_flatMap]
  rintro (heq | hmem | ⟨a, ha, hmem⟩ | hmem)
  · exact absurd heq (by decide)
  · exact hname hmem
  · exact hattribute a ha hmem
  · exact hending hmem

/-- The name of the element that a start tag creates. -/
def elementName (name : String) : Text :=
  if name = "image" then "img".toList else name.toList

/-- A key as the vocabulary of the element spells it. -/
def spelledKey (name : String) (key : Text) : Text :=
  if name = "svg" then foreignAttributeName (svgAttributeName key)
  else if name = "math" then foreignAttributeName (mathAttributeName key)
  else key

theorem Tag.node_eq (tag : Tag) :
    tag.node = .element (elementName tag.name)
      (tag.attributes.map fun pair => (spelledKey tag.name pair.1, pair.2)) [] := by
  by_cases hsvg : tag.name = "svg"
  · have hname : elementName tag.name = tag.name.toList := by rw [hsvg]; rfl
    rw [hname]
    simp only [Tag.node, Tag.made, if_pos hsvg, spelledKey]
    rfl
  by_cases hmath : tag.name = "math"
  · have hname : elementName tag.name = tag.name.toList := by rw [hmath]; rfl
    rw [hname]
    simp only [Tag.node, Tag.made, if_neg hsvg, if_pos hmath, spelledKey]
    rfl
  have hkeys : tag.attributes.map (fun pair => (spelledKey tag.name pair.1, pair.2)) =
      tag.attributes := by
    simp only [spelledKey, if_neg hsvg, if_neg hmath]
    exact List.map_id _
  rw [hkeys]
  by_cases himage : tag.name = "image"
  · simp only [Tag.node, Tag.made, if_neg hsvg, if_neg hmath, if_pos himage, elementName]
  · simp only [Tag.node, Tag.made, if_neg hsvg, if_neg hmath, if_neg himage, elementName]

end Html

namespace Markup.Document

open Html (WrittenTag WrittenAttribute elementName spelledKey)

variable {document : Document}

theorem contains_of_mem_nodes {node : Node} (h : node ∈ document.nodes) :
    ∃ path around, document.Contains path around node := by
  obtain ⟨index, hindex⟩ := List.getElem?_of_mem h
  exact ⟨_, _, .top hindex⟩

theorem Contains.of_mem_children {path : Path} {around : List Path} {parent node : Node}
    (hparent : document.Contains path around parent) (h : node ∈ parent.children) :
    ∃ path around, document.Contains path around node := by
  obtain ⟨index, hindex⟩ := List.getElem?_of_mem h
  exact ⟨_, _, hparent.child hindex⟩

/-- What stands in a section of the root, or beside the sections, is in the document, whether root
and sections are dissolved or not. -/
theorem contains_of_mem_dissolveSections {source : Text} {attributes : List Attribute}
    {sections : List Node} {node : Node}
    (hnodes : document.nodes = if mentionsRoot source then
      rootOnly [.element "html".toList attributes sections]
      else dissolveRoot [.element "html".toList attributes sections])
    (h : node ∈ dissolveSections sections) : ∃ path around, document.Contains path around node := by
  by_cases hroot : mentionsRoot source = true
  · rw [if_pos hroot] at hnodes
    have htop : document.Contains [0] [] (.element "html".toList attributes sections) :=
      .top (by rw [hnodes]; rfl)
    obtain ⟨part, hpart, hmem⟩ := List.mem_flatMap.1 h
    obtain ⟨path, around, hsection⟩ := htop.of_mem_children (show part ∈ _ from hpart)
    cases hchildren : childrenIf? ["head".toList, "body".toList] part with
    | none =>
      rw [hchildren, Option.getD_none] at hmem
      obtain rfl := List.mem_singleton.1 hmem
      exact ⟨path, around, hsection⟩
    | some children =>
      rw [hchildren, Option.getD_some] at hmem
      refine hsection.of_mem_children ?_
      cases part with
      | element name attributes nodes =>
        simp only [childrenIf?, Option.ite_none_right_eq_some, Option.some.injEq] at hchildren
        rw [← hchildren.2] at hmem
        exact hmem
      | _ => cases hchildren
  · rw [if_neg hroot] at hnodes
    refine contains_of_mem_nodes ?_
    rw [hnodes]
    exact List.mem_flatMap.2 ⟨_, List.mem_singleton_self _, h⟩

theorem mentionsRoot_of_name {t : WrittenTag} (h : t.tag.name = "html") :
    mentionsRoot t.source = true := by
  have hname : Text.toAsciiLower t.name = "html".toList := by
    have heq := congrArg String.toList h
    rwa [WrittenTag.tag, String.toList_ofList] at heq
  have hsource : Text.toAsciiLower t.source = '<' :: Text.toAsciiLower t.name ++
      Text.toAsciiLower (t.attributes.flatMap WrittenAttribute.source ++ t.ending) := by
    rw [WrittenTag.source, Text.toAsciiLower, List.map_append, List.map_cons]
    rfl
  rw [mentionsRoot, Text.hasInfix_iff, hsource, hname]
  exact List.IsPrefix.isInfix ⟨_, rfl⟩

/-- The element of a start tag that stands alone has exactly the attributes that are written, each
value with its directives as it stands between the quotes: if no directive has the quote of its
value, the source spells no number of a directive and no document type, and the tag creates an
element at all. -/
theorem ofHtml_startTag (t : WrittenTag) (h : t.IsReadable) (hkept : t.tag.IsKept)
    (hplaceholder : ¬Directive.placeholderStart <:+: t.source)
    (hdoctype : ¬Doctype.keyword <:+: Text.toAsciiLower t.source)
    (hsize : t.source.length ≤ Text.maxSize) :
    ∃ path around children, (ofHtml t.source).Contains path around
      (.element (elementName t.tag.name)
        (t.attributes.map fun a => (spelledKey t.tag.name (Text.toAsciiLower a.key), a.content))
        children) := by
  have hparse : Html.parse (Directive.toMarkup t.source) =
      (Html.Builder.start.take (.tag t.tag)).finish.nodes := by
    rw [h.toMarkup_source hplaceholder hsize]
    have hscan := h.scan_source false []
    rw [List.append_nil] at hscan
    refine Html.parse_oneToken (List.cons_ne_nil _ _) ?_ hscan
    exact Html.normalize_eq rfl h.carriageReturn_not_mem
  have hnodes : (ofHtml t.source).nodes = if mentionsRoot t.source then
      rootOnly (Html.Builder.start.take (.tag t.tag)).finish.nodes
      else dissolveRoot (Html.Builder.start.take (.tag t.tag)).finish.nodes := by
    rw [ofHtml, Doctype.strip_eq hdoctype]
    simp only [hparse]
  have hnode : t.tag.node = .element (elementName t.tag.name)
      (t.attributes.map fun a => (spelledKey t.tag.name (Text.toAsciiLower a.key), a.content))
      [] := by
    rw [Html.Tag.node_eq, WrittenTag.tag]
    simp only [List.map_map]
    rfl
  rcases hkept.finish_nodes with ⟨hroot, heq⟩ | ⟨sections, heq, hmem⟩
  · rw [heq, mentionsRoot_of_name hroot, if_pos rfl] at hnodes
    have hplain : t.tag.node = .element t.tag.name.toList t.tag.attributes [] := by
      have hmade : t.tag.made = (⟨.html, t.tag.name⟩, t.tag.attributes) := by
        refine Html.made_eq ?_ ?_ ?_ <;> rw [hroot] <;> decide
      rw [Html.Tag.node, hmade]
    obtain ⟨hname, hattributes, -⟩ := Node.element.inj (hnode.symm.trans hplain)
    have htop : (ofHtml t.source).Contains [0] [] (.element "html".toList t.tag.attributes
        [Html.sectionNode "head" [], Html.sectionNode "body" []]) := .top (by rw [hnodes]; rfl)
    rw [hname, hattributes, hroot]
    exact ⟨_, _, _, htop⟩
  · rw [heq] at hnodes
    obtain ⟨path, around, hcontains⟩ := contains_of_mem_dissolveSections hnodes hmem
    exact ⟨path, around, [], hnode ▸ hcontains⟩

/-- A link whose address is code with a text in the quote that the value does not have. -/
def quotedLink (quote : Char) : WrittenTag :=
  ⟨'a', [], [⟨[' '], "href".toList, quote, [.directive "= url(\"x\") ".toList]⟩], [], false⟩

/-- Between quotes of the other kind the code is the value. -/
theorem ofHtml_startTag_link :
    ∃ path around children, (ofHtml (quotedLink '\'').source).Contains path around
      (.element "a".toList [("href".toList, "<%= url(\"x\") %>".toList)] children) :=
  ofHtml_startTag (quotedLink '\'')
    ⟨by decide, by decide, List.forall_mem_singleton.2
      ⟨by decide, by decide, by decide, by decide, .inr rfl, by decide⟩, by decide, by decide⟩
    ⟨rfl, by decide, by decide, by decide⟩ (by decide) (by decide) (by decide)

/-- The names and the attributes of the elements among nodes. -/
def elements (nodes : List Node) : List (Text × List Attribute) :=
  nodes.filterMap fun
    | .element name attributes _ => some (name, attributes)
    | _ => none

/-- Between quotes of its own kind the code is torn apart. -/
theorem ofHtml_quotedLink :
    (quotedLink '"').source = "<a href=\"<%= url(\"x\") %>\">".toList ∧
      elements (ofHtml (quotedLink '"').source).nodes =
        [("a".toList, [("href".toList, "<%= url(".toList), ("x\")".toList, []),
          ("%".toList, [])])] := by
  decide +kernel

end Markup.Document

end SlimTemplate
