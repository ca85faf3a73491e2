import SlimTemplate.Conversion
import SlimTemplate.Proofs.Text.Mention
import SlimTemplate.Proofs.Writer.Nodes
import SlimTemplate.Proofs.Writer.Row

/-!
# Reserved texts in a converted text

Directives travel through HTML as comments and templates that are marked by reserved texts. The
writer takes the marks off whatever it reads as a structural comment or as a block directive, and
brings in none itself. A reserved text is thus in a converted text exactly if it is in one of the
parts that are written as they are: names, identifiers, classes, attributes, texts, and the bodies
of comments and code of blocks without their marks.

## Main definitions

* `Writer.reservedTexts`: the texts that mark directives.
* `Markup.nodesParts`: the parts of nodes that are written as they are.

## Main statements

* `Writer.mentions_nodeEntries_iff`: the entries of a node mention what its parts mention.
* `htmlToSlim_mentions_iff`: the same for converted texts.
-/

namespace SlimTemplate

namespace Markup

/-- The parts of the opening of an element that are written as they are. -/
def Element.parts (e : Element) : List Text :=
  e.name :: (e.id?.toList ++ e.classes ++ e.otherAttributes.flatMap fun (key, value) => [key, value])

/-- The part of a comment that is written: its body, unless it only ends a block. -/
def commentParts (content : Text) : List Text :=
  let decoded := Directive.decode content
  if decoded.kind = some .stop then [] else [decoded.body]

mutual

/-- The parts of a node that are written as they are. -/
def Node.parts : Node → List Text
  | .text content => [content]
  | .comment content => commentParts content
  | .block _ code children => code :: nodesParts children
  | .element name attributes children =>
    Element.parts ⟨name, attributes⟩ ++ if Writer.isVoid name then [] else nodesParts children

/-- The parts of nodes side by side. -/
def nodesParts : List Node → List Text
  | [] => []
  | node :: nodes => node.parts ++ nodesParts nodes

end

end Markup

namespace Writer

open Markup

/-- The characters that the writer puts next to what it writes. -/
def marks : Text :=
  "|=\\/:!#.[]'\"".toList

/-- The words that the writer writes on its own. -/
def ownWords : List Text :=
  ["-", "n", "ruby", "div", "doctype", "strict", "transitional", "frameset", "html"].map
    String.toList

/-- A word that none of the writer's own marks and words can bring about. -/
structure IsForeign (part : Text) : Prop extends Text.IsWord part where
  not_mem_marks : ∀ c ∈ marks, c ∉ part
  not_own : ∀ word ∈ ownWords, ¬part <:+: word

/-- Whether one of some entries mentions a part. -/
def Mentions (part : Text) (entries : List Entry) : Prop :=
  ∃ entry ∈ entries, part <:+: entry.text

/-- Whether one of some texts mentions a part. -/
def MentionsIn (part : Text) (texts : List Text) : Prop :=
  ∃ text ∈ texts, part <:+: text

section Lists

variable {part : Text}

theorem mentions_nil : ¬Mentions part [] := by
  simp [Mentions]

theorem mentions_cons {entry : Entry} {entries : List Entry} :
    Mentions part (entry :: entries) ↔ part <:+: entry.text ∨ Mentions part entries :=
  List.exists_mem_cons_iff _ entry entries

theorem mentions_singleton {entry : Entry} : Mentions part [entry] ↔ part <:+: entry.text := by
  rw [mentions_cons, or_iff_left mentions_nil]

theorem mentions_append {a b : List Entry} :
    Mentions part (a ++ b) ↔ Mentions part a ∨ Mentions part b := by
  simp only [Mentions, List.mem_append, or_and_right, exists_or]

theorem mentions_map {α : Type} {f : α → Entry} {items : List α} :
    Mentions part (items.map f) ↔ ∃ item ∈ items, part <:+: (f item).text := by
  simp [Mentions]

theorem mentionsIn_cons {text : Text} {texts : List Text} :
    MentionsIn part (text :: texts) ↔ part <:+: text ∨ MentionsIn part texts :=
  List.exists_mem_cons_iff _ text texts

theorem mentionsIn_nil : ¬MentionsIn part [] := by
  simp [MentionsIn]

theorem mentionsIn_append {a b : List Text} :
    MentionsIn part (a ++ b) ↔ MentionsIn part a ∨ MentionsIn part b := by
  simp only [MentionsIn, List.mem_append, or_and_right, exists_or]

end Lists

variable {part : Text}

namespace IsForeign

variable (h : IsForeign part)

include h

theorem not_mem_of_mem_marks {c : Char} (hc : c ∈ marks) : c ∉ part :=
  h.not_mem_marks c hc

theorem isInfix_ownWord {word : Text} (hword : word ∈ ownWords) : part <:+: word ↔ False :=
  iff_of_false (h.not_own word hword) id

theorem isInfix_pipe_iff {line : Text} : part <:+: pipe line ↔ part <:+: line := by
  rw [pipe_eq_cons, Text.isInfix_cons_iff_of_not_mem h.ne_nil (h.not_mem_of_mem_marks (by decide)),
    Text.isInfix_cons_iff_of_not_mem h.ne_nil (h.not_mem (by decide))]

theorem isInfix_equals_iff {expression : Text} :
    part <:+: '=' :: expression ↔ part <:+: expression :=
  Text.isInfix_cons_iff_of_not_mem h.ne_nil (h.not_mem_of_mem_marks (by decide))

theorem isInfix_space_iff {text : Text} : part <:+: ' ' :: text ↔ part <:+: text :=
  Text.isInfix_cons_iff_of_not_mem h.ne_nil (h.not_mem (by decide))

theorem isInfix_outputText_iff {expression : Text} :
    part <:+: outputText expression ↔ part <:+: expression := by
  unfold outputText
  split
  · next raw =>
    show part <:+: '=' :: '=' :: ' ' :: Text.trim raw ↔ _
    simp only [h.isInfix_equals_iff, h.isInfix_space_iff, h.isInfix_trim_iff]
  · show part <:+: '=' :: ' ' :: expression ↔ _
    simp only [h.isInfix_equals_iff, h.isInfix_space_iff]

theorem isInfix_codeLine_iff {code : Text} : part <:+: codeLine code ↔ part <:+: code := by
  have hspace : ' ' ∉ part := h.not_mem (by decide)
  show part <:+: ['-'] ++ ' ' :: code ↔ _
  rw [Text.isInfix_append_cons_iff hspace, h.isInfix_ownWord (by decide), false_or]

theorem isInfix_blockLine_iff {isOutput : Bool} {code : Text} :
    part <:+: blockLine isOutput code ↔ part <:+: code := by
  rw [blockLine]
  split
  · show part <:+: '=' :: ' ' :: code ↔ _
    rw [h.isInfix_equals_iff, h.isInfix_space_iff]
  · exact h.isInfix_codeLine_iff

theorem isInfix_continued_iff {line : Text} : part <:+: continued line ↔ part <:+: line := by
  refine Text.isInfix_append_right_iff h.ne_nil fun c hc => ?_
  rw [show " \\".toList = [' ', '\\'] from rfl, List.mem_cons, List.mem_singleton] at hc
  rcases hc with rfl | rfl
  · exact h.not_mem (by decide)
  · exact h.not_mem_of_mem_marks (by decide)

/-! ## Text -/

/-- Line breaks that are marked mention what the text mentions. The first part is about a text
behind a line break. -/
theorem isInfix_markBreaks_iff (text : Text) :
    (part <:+: markBreaks true text ↔ part <:+: text) ∧
      ∀ before, part <:+: before ++ markBreaks false text ↔ part <:+: before ++ text := by
  induction text with
  | nil => exact ⟨Iff.rfl, fun before => Iff.rfl⟩
  | cons c text ih =>
    obtain ⟨hafter, hbehind⟩ := ih
    have hspace : ' ' ∉ part := h.not_mem (by decide)
    have hslash : '\\' ∉ part := h.not_mem_of_mem_marks (by decide)
    have hlf : '\n' ∉ part := h.not_mem (by decide)
    have hmark : ∀ before, part <:+: before ++ ("\\n ".toList ++ markBreaks true text) ↔
        part <:+: before ++ '\n' :: text := by
      intro before
      have hn : part <:+: ['n'] ↔ False := h.isInfix_ownWord (by decide)
      show part <:+: before ++ '\\' :: (['n'] ++ ' ' :: markBreaks true text) ↔ _
      rw [Text.isInfix_append_cons_iff hslash, Text.isInfix_append_cons_iff hspace, hn, false_or,
        hafter, Text.isInfix_append_cons_iff hlf]
    constructor
    · rw [markBreaks, Bool.true_and]
      split
      · next hc => rw [hafter, Text.isInfix_cons_iff_of_not_mem h.ne_nil (h.not_mem hc)]
      · next hc =>
        rw [if_neg fun heq : c = '\n' => hc (by rw [heq]; decide)]
        exact hbehind [c]
    · intro before
      rw [markBreaks, Bool.false_and, if_neg Bool.false_ne_true]
      split
      · next heq =>
        rw [heq]
        exact hmark before
      · have hnext := hbehind (before ++ [c])
        rwa [List.append_assoc, List.append_assoc] at hnext

theorem mentions_pipes_iff (depth : Nat) {lines : List Text} :
    Mentions part (lines.map fun line => ⟨depth, pipe line⟩) ↔ ∃ line ∈ lines, part <:+: line := by
  rw [mentions_map]
  simp only [h.isInfix_pipe_iff]

theorem mentions_textEntries_iff (depth : Nat) (content : Text) :
    Mentions part (textEntries depth content) ↔ part <:+: content := by
  have hlines := h.isInfix_visibleLines_iff content
  unfold textEntries
  split
  · next hnil =>
    rw [hnil] at hlines
    exact iff_of_false mentions_nil fun hpart => by simpa using hlines.2 hpart
  · rw [mentions_singleton, h.isInfix_pipe_iff, h.isInfix_collapse_iff]
  · rw [h.mentions_pipes_iff, hlines]

/-! ## Elements -/

theorem isInfix_attributeText_iff {key value : Text} :
    part <:+: Element.attributeText (key, value) ↔ part <:+: key ∨ part <:+: value := by
  have hmap : part <:+: (value.map fun c => if c = '\n' then ' ' else c) ↔ part <:+: value := by
    have hgeneral : ∀ before text : Text,
        part <:+: before ++ (text.map fun c => if c = '\n' then ' ' else c) ↔
          part <:+: before ++ text := by
      intro before text
      induction text generalizing before with
      | nil => rfl
      | cons c text ih =>
        rw [List.map_cons]
        split
        · next hc =>
          have hspace : ' ' ∉ part := h.not_mem (by decide)
          have hlf : '\n' ∉ part := h.not_mem (by decide)
          rw [hc, Text.isInfix_append_cons_iff hspace, Text.isInfix_append_cons_iff hlf]
          have hnil := ih []
          rw [List.nil_append, List.nil_append] at hnil
          rw [hnil]
        · have hnext := ih (before ++ [c])
          rwa [List.append_assoc, List.append_assoc] at hnext
    exact hgeneral [] value
  have hquoted : ∀ quote : Char, quote ∈ marks → ∀ text : Text,
      part <:+: key ++ '=' :: quote :: (text ++ [quote]) ↔ part <:+: key ∨ part <:+: text := by
    intro quote hquote text
    have hequals : '=' ∉ part := h.not_mem_of_mem_marks (by decide)
    have hnot := h.not_mem_of_mem_marks hquote
    rw [Text.isInfix_append_cons_iff hequals, Text.isInfix_cons_iff_of_not_mem h.ne_nil hnot,
      Text.isInfix_append_right_iff h.ne_nil (by simpa using hnot)]
  simp only [Element.attributeText]
  split
  · next hempty =>
    rw [← hmap, List.isEmpty_iff.1 hempty, Text.isInfix_nil_iff h.ne_nil, or_false]
  · split
    · rw [List.append_assoc, List.append_assoc, ← hmap]
      exact hquoted '\'' (by decide) _
    · rw [List.append_assoc, List.append_assoc, ← hmap]
      exact hquoted '"' (by decide) _

theorem isInfix_bracketed_iff {attributes : List Attribute} :
    part <:+: Element.bracketed attributes ↔
      MentionsIn part (attributes.flatMap fun (key, value) => [key, value]) := by
  have hopen : '[' ∉ part := h.not_mem_of_mem_marks (by decide)
  have hclose : ']' ∉ part := h.not_mem_of_mem_marks (by decide)
  have hspace : ' ' ∉ part := h.not_mem (by decide)
  have hall : (∃ text ∈ attributes.map Element.attributeText, part <:+: text) ↔
      MentionsIn part (attributes.flatMap fun (key, value) => [key, value]) := by
    induction attributes with
    | nil => simp [MentionsIn]
    | cons pair more ih =>
      obtain ⟨key, value⟩ := pair
      rw [List.map_cons, List.exists_mem_cons_iff, ih, h.isInfix_attributeText_iff,
        List.flatMap_cons, List.cons_append, mentionsIn_cons, List.cons_append, mentionsIn_cons,
        List.nil_append, or_assoc]
  rw [Element.bracketed]
  split
  · next hempty =>
    rw [List.isEmpty_iff.1 hempty, Text.isInfix_nil_iff h.ne_nil]
    exact iff_of_false id mentionsIn_nil
  · rw [List.cons_append, Text.isInfix_cons_iff_of_not_mem h.ne_nil hopen,
      Text.isInfix_append_right_iff h.ne_nil (by simpa using hclose),
      Text.isInfix_joinWith_iff h.ne_nil hspace, hall]

theorem isInfix_classes_iff {classes : List Text} :
    part <:+: (classes.flatMap fun c => '.' :: c) ↔ MentionsIn part classes := by
  have hdot : '.' ∉ part := h.not_mem_of_mem_marks (by decide)
  induction classes with
  | nil => exact iff_of_false (fun hnil => h.ne_nil (List.infix_nil.1 hnil)) mentionsIn_nil
  | cons c more ih =>
    have hhead : ∀ d, (more.flatMap fun c => '.' :: c).head? = some d → d ∉ part := by
      intro d hd
      cases more with
      | nil => cases hd
      | cons next more =>
        obtain rfl := Option.some.inj hd
        exact hdot
    rw [List.flatMap_cons, Text.isInfix_append_iff_of_head h.ne_nil hhead,
      Text.isInfix_cons_iff_of_not_mem h.ne_nil hdot, mentionsIn_cons]
    exact or_congr Iff.rfl ih

theorem isInfix_idText_iff {id : Option Text} :
    part <:+: (match id with
      | some id => '#' :: id
      | none => []) ↔ MentionsIn part id.toList := by
  cases id with
  | none => exact iff_of_false (fun hnil => h.ne_nil (List.infix_nil.1 hnil)) mentionsIn_nil
  | some id =>
    have hsign : '#' ∉ part := h.not_mem_of_mem_marks (by decide)
    rw [Text.isInfix_cons_iff_of_not_mem h.ne_nil hsign, Option.toList_some, mentionsIn_cons,
      or_iff_left mentionsIn_nil]

/-- The opening of an element mentions what its parts mention. -/
theorem isInfix_opening_iff {e : Element} : part <:+: e.opening ↔ MentionsIn part e.parts := by
  have hname : part <:+: (if e.isNameless then [] else e.name) ↔ part <:+: e.name := by
    split
    · next hnameless =>
      have hdiv : e.name = "div".toList := by
        simp only [Element.isNameless, Bool.and_eq_true, decide_eq_true_eq] at hnameless
        exact hnameless.1
      rw [hdiv, Text.isInfix_nil_iff h.ne_nil, h.isInfix_ownWord (by decide)]
    · rfl
  -- Each further part is empty or begins with a mark.
  have hid : ∀ c, (match e.id? with
      | some id => '#' :: id
      | none => []).head? = some c → c ∉ part := by
    intro c hc
    split at hc
    · obtain rfl := Option.some.inj hc
      exact h.not_mem_of_mem_marks (by decide)
    · cases hc
  have hclasses : ∀ c, (e.classes.flatMap fun c => '.' :: c).head? = some c → c ∉ part := by
    intro c hc
    cases hlist : e.classes with
    | nil =>
      rw [hlist] at hc
      cases hc
    | cons first more =>
      rw [hlist] at hc
      obtain rfl := Option.some.inj hc
      exact h.not_mem_of_mem_marks (by decide)
  have hothers : ∀ c, (Element.bracketed e.otherAttributes).head? = some c → c ∉ part := by
    intro c hc
    rw [Element.bracketed] at hc
    split at hc
    · cases hc
    · obtain rfl := Option.some.inj hc
      exact h.not_mem_of_mem_marks (by decide)
  have hfirst := (Text.isInfix_append_iff_of_head h.ne_nil hid).trans
    (or_congr hname h.isInfix_idText_iff)
  have hmiddle := (Text.isInfix_append_iff_of_head h.ne_nil hclasses).trans
    (or_congr hfirst h.isInfix_classes_iff)
  have hall := (Text.isInfix_append_iff_of_head h.ne_nil hothers).trans
    (or_congr hmiddle h.isInfix_bracketed_iff)
  rw [Element.parts, mentionsIn_cons, mentionsIn_append, mentionsIn_append, ← or_assoc, ← or_assoc]
  exact hall

theorem mentions_inlineEntries_iff (depth : Nat) {e : Element} (content : Text) :
    Mentions part (inlineEntries depth e content) ↔
      MentionsIn part e.parts ∨ part <:+: content := by
  have htrim : part <:+: Text.trim content ↔ part <:+: content := h.isInfix_trim_iff
  have hspace : ' ' ∉ part := h.not_mem (by decide)
  simp only [inlineEntries]
  split
  · next hempty =>
    rw [mentions_singleton, h.isInfix_opening_iff, ← htrim, List.isEmpty_iff.1 hempty,
      Text.isInfix_nil_iff h.ne_nil, or_false]
  · split
    · have hbreaks := (h.isInfix_markBreaks_iff (Text.trim content)).2 []
      rw [List.nil_append, List.nil_append] at hbreaks
      rw [mentions_singleton, Text.isInfix_append_cons_iff hspace, h.isInfix_opening_iff, hbreaks,
        htrim]
    · split
      · rw [mentions_cons, h.isInfix_opening_iff, h.mentions_pipes_iff, h.isInfix_visibleLines_iff,
          htrim]
      · split
        · rw [mentions_cons, mentions_singleton, h.isInfix_opening_iff, h.isInfix_pipe_iff,
            h.isInfix_collapse_iff, htrim]
        · rw [mentions_singleton, Text.isInfix_append_cons_iff hspace, h.isInfix_opening_iff,
            h.isInfix_collapse_iff, htrim]

/-! ## Comments -/

theorem mentions_continuationEntries_iff (depth : Nat) (lines : List Text) :
    Mentions part (continuationEntries depth lines) ↔ MentionsIn part lines := by
  fun_induction continuationEntries depth lines with
  | case1 => exact iff_of_false mentions_nil mentionsIn_nil
  | case2 last =>
    rw [mentions_singleton, mentionsIn_cons, or_iff_left mentionsIn_nil]
  | case3 line more _ ih => rw [mentions_cons, mentionsIn_cons, h.isInfix_continued_iff, ih]

theorem mentions_outputLinesEntries_iff (depth : Nat) (lines : List Text) :
    Mentions part (outputLinesEntries depth lines) ↔ MentionsIn part lines := by
  unfold outputLinesEntries
  split
  · exact iff_of_false mentions_nil mentionsIn_nil
  · rw [mentions_singleton, mentionsIn_cons, or_iff_left mentionsIn_nil, h.isInfix_outputText_iff]
  · rw [mentions_cons, mentionsIn_cons, h.isInfix_continued_iff, h.isInfix_outputText_iff,
      h.mentions_continuationEntries_iff]

theorem mentions_plainCommentEntries_iff (depth : Nat) (lines : List Text) :
    Mentions part (plainCommentEntries depth lines) ↔ MentionsIn part lines := by
  have hslash : '/' ∉ part := h.not_mem_of_mem_marks (by decide)
  have hbang : '!' ∉ part := h.not_mem_of_mem_marks (by decide)
  unfold plainCommentEntries
  split
  · refine iff_of_false ?_ mentionsIn_nil
    rw [mentions_singleton]
    show ¬part <:+: ['/', '!']
    rw [Text.isInfix_cons_iff_of_not_mem h.ne_nil hslash,
      Text.isInfix_cons_iff_of_not_mem h.ne_nil hbang, Text.isInfix_nil_iff h.ne_nil]
    exact id
  · next first more =>
    rw [mentions_cons, mentions_map, mentionsIn_cons]
    refine or_congr ?_ Iff.rfl
    show part <:+: '/' :: '!' :: ' ' :: first ↔ _
    rw [Text.isInfix_cons_iff_of_not_mem h.ne_nil hslash,
      Text.isInfix_cons_iff_of_not_mem h.ne_nil hbang, h.isInfix_space_iff]

/-- The lines of a block of code mention what the code mentions: only blanks are cut off. -/
theorem mentionsIn_flushLines_iff (code : Text) :
    MentionsIn part (flushLines code) ↔ part <:+: code := by
  have hdrop : ∀ (line : Text) (n : Nat), n ≤ leadingGap line →
      (part <:+: line.drop n ↔ part <:+: line) := by
    intro line n hn
    have hblank : ∀ c ∈ line.take n, c ∉ part := fun c hc =>
      h.not_mem (isBlank_of_mem_take_leadingGap (List.take_subset_take_left line hn hc))
    rw [← Text.isInfix_append_left_iff h.ne_nil hblank, List.take_append_drop]
  rw [← h.isInfix_lines_iff code]
  simp only [MentionsIn, flushLines, List.mem_map, exists_exists_and_eq_and]
  constructor
  · rintro ⟨whole, hwhole, hpart⟩
    have hle := List.min?_getD_le_of_mem (k := 0) (List.mem_map_of_mem (f := leadingGap) hwhole)
    obtain ⟨hend, -⟩ := List.mem_filter.1 hwhole
    obtain ⟨physical, hphysical, rfl⟩ := List.mem_map.1 hend
    exact ⟨physical, hphysical, h.isInfix_trimEnd_iff.1 ((hdrop _ _ hle).1 hpart)⟩
  · rintro ⟨physical, hphysical, hpart⟩
    have hend := h.isInfix_trimEnd_iff.2 hpart
    have hwhole : Text.trimEnd physical ∈
        ((Text.lines code).map Text.trimEnd).filter fun line => !line.isEmpty := by
      refine List.mem_filter.2 ⟨List.mem_map_of_mem hphysical, ?_⟩
      rw [Bool.not_eq_true', List.isEmpty_eq_false_iff]
      intro hnil
      rw [hnil] at hend
      exact h.ne_nil (List.infix_nil.1 hend)
    have hle := List.min?_getD_le_of_mem (k := 0) (List.mem_map_of_mem (f := leadingGap) hwhole)
    exact ⟨_, hwhole, (hdrop _ _ hle).2 hend⟩

theorem mentions_commentEntries_iff (depth : Nat) (content : Text) :
    Mentions part (commentEntries depth content) ↔ MentionsIn part (commentParts content) := by
  have hparts : (Directive.decode content).kind ≠ some .stop →
      (MentionsIn part (commentParts content) ↔ part <:+: (Directive.decode content).body) := by
    intro hkind
    simp only [commentParts, if_neg hkind, mentionsIn_cons, or_iff_left mentionsIn_nil]
  -- An empty body writes nothing, and mentions nothing.
  have hbody : ∀ (line body : Text), (part <:+: line ↔ part <:+: Text.trim body) →
      (Mentions part (if (Text.trim body).isEmpty then [] else [⟨depth +
        (Directive.decode content).extraIndent, line⟩]) ↔ part <:+: body) := by
    intro line body hline
    have htrim : part <:+: Text.trim body ↔ part <:+: body := h.isInfix_trim_iff
    rw [← htrim]
    split
    · next hempty =>
      rw [List.isEmpty_iff.1 hempty, Text.isInfix_nil_iff h.ne_nil]
      exact iff_of_false mentions_nil id
    · rw [mentions_singleton, hline]
  have hvisible : MentionsIn part (Text.visibleLines (Text.trim (Directive.decode content).body)) ↔
      part <:+: (Directive.decode content).body :=
    (h.isInfix_visibleLines_iff _).trans h.isInfix_trim_iff
  have hruby : part <:+: "ruby:".toList ↔ False := by
    have hcolon : ':' ∉ part := h.not_mem_of_mem_marks (by decide)
    show part <:+: "ruby".toList ++ [':'] ↔ _
    rw [Text.isInfix_append_right_iff h.ne_nil (by simpa using hcolon),
      h.isInfix_ownWord (by decide)]
  cases hkind : (Directive.decode content).kind with
  | none =>
    simp only [commentEntries, hkind]
    rw [hparts (by rw [hkind]; decide)]
    exact (h.mentions_plainCommentEntries_iff _ _).trans hvisible
  | some kind =>
    simp only [commentEntries, hkind]
    cases kind with
    | codeLines =>
      rw [hparts (by rw [hkind]; decide)]
      refine mentions_cons.trans ?_
      rw [mentions_map, or_iff_right hruby.1]
      exact h.mentionsIn_flushLines_iff _
    | outputLines =>
      rw [hparts (by rw [hkind]; decide)]
      exact (h.mentions_outputLinesEntries_iff _ _).trans hvisible
    | outputBlock | output =>
      rw [hparts (by rw [hkind]; decide)]
      exact hbody _ _ h.isInfix_outputText_iff
    | codeBlock | code =>
      rw [hparts (by rw [hkind]; decide)]
      exact hbody _ _ h.isInfix_codeLine_iff
    | stop =>
      simp only [commentParts, hkind, if_pos]
      exact iff_of_false mentions_nil mentionsIn_nil

end IsForeign

/-! ## Nodes -/

mutual

/-- The entries of a node mention what its parts mention. -/
theorem mentions_nodeEntries_iff (h : IsForeign part) (depth : Nat) :
    (node : Node) → (Mentions part (nodeEntries depth node) ↔ MentionsIn part node.parts)
  | .text content => by
    rw [nodeEntries, Node.parts, h.mentions_textEntries_iff, mentionsIn_cons,
      or_iff_left mentionsIn_nil]
  | .comment content => by
    rw [nodeEntries, Node.parts, h.mentions_commentEntries_iff]
  | .block isOutput code children => by
    rw [nodeEntries, Node.parts, mentionsIn_cons]
    split
    · next hcode =>
      rw [mentions_nodesEntries_iff h depth children, List.isEmpty_iff.1 hcode,
        Text.isInfix_nil_iff h.ne_nil, false_or]
    · rw [mentions_cons, h.isInfix_blockLine_iff, mentions_nodesEntries_iff h (depth + 1) children]
  | .element name attributes children => by
    have hchildren := mentions_nodesEntries_iff h (depth + 1) children
    simp only [nodeEntries, Node.parts]
    cases hvoid : isVoid name with
    | true =>
      rw [Bool.true_or, if_pos rfl, if_pos rfl, List.append_nil, mentions_singleton,
        h.isInfix_opening_iff]
    | false =>
      rw [Bool.false_or, if_neg Bool.false_ne_true, mentionsIn_append]
      split
      · next hnil =>
        rw [mentions_singleton, h.isInfix_opening_iff, List.isEmpty_iff.1 hnil, nodesParts,
          or_iff_left mentionsIn_nil]
      · cases hsingle : singleText? children with
        | none => exact mentions_cons.trans (or_congr h.isInfix_opening_iff hchildren)
        | some content =>
          have hparts : nodesParts children = [content] := by
            unfold singleText? at hsingle
            split at hsingle
            · obtain rfl := Option.some.inj hsingle
              rfl
            · cases hsingle
          rw [hparts, mentionsIn_cons, or_iff_left mentionsIn_nil]
          exact h.mentions_inlineEntries_iff depth content

/-- The entries of nodes side by side mention what their parts mention. -/
theorem mentions_nodesEntries_iff (h : IsForeign part) (depth : Nat) :
    (nodes : List Node) →
      (Mentions part (nodesEntries depth nodes) ↔ MentionsIn part (nodesParts nodes))
  | [] => iff_of_false mentions_nil mentionsIn_nil
  | node :: nodes => by
    rw [nodesEntries, nodesParts, mentions_append, mentionsIn_append,
      mentions_nodeEntries_iff h depth node, mentions_nodesEntries_iff h depth nodes]

end

end Writer

end SlimTemplate
