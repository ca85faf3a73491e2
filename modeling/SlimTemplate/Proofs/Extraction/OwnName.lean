import SlimTemplate.Proofs.Extraction.Extract
import SlimTemplate.Proofs.Line.Block
import SlimTemplate.Proofs.Line.Kind
import SlimTemplate.Proofs.Line.Parts

/-!
# Blocks by an identifier or a class

The names that are kept or removed are put into small letters, while the identifiers and classes of
a source stand as they are written. So an identifier or a class in small letters names each line
that has it, and the block of that line is removed or kept as a whole, but for comments of the block
that are left with nothing to comment on. One with a capital names what its small letters name.

## Main definitions

* `ExtractionOptions.removing`, `ExtractionOptions.keeping`: options with a single name.

## Main statements

* `Extraction.isNamedAt_of_ownName`: a line has its identifier and its classes as names.
* `extract_ownName`: what an identifier or a class of a line removes and keeps.
* `extract_ownName_ne`: a class with a capital removes nothing, and a comment at the end of a block
  is not kept.
-/

namespace SlimTemplate

open Extraction LineTree

/-- The options with a single name to remove. -/
def ExtractionOptions.removing (options : ExtractionOptions) (name : Text) : ExtractionOptions :=
  { options with
    outline := none, selector := none, keep := [], remove := [name], removeWrapper := false }

/-- The options with a single name to keep. -/
def ExtractionOptions.keeping (options : ExtractionOptions) (name : Text) : ExtractionOptions :=
  { options with outline := none, selector := none, keep := [name], removeWrapper := false }

variable {options : ExtractionOptions} {source name : Text} {tree : LineTree} {i j : Nat}
  {line : SlimLine} {head : Head} {mark : Mark}

/-! ## Names in small letters -/

theorem Mark.IsName.isTagChar (h : mark.IsName) : ∀ c ∈ mark.name, Head.isTagChar c = true :=
  fun c hc => Head.isTagChar_of_isNameChar (h.name c hc)

namespace Extraction

/-- A single name without commas and blanks is put into small letters. -/
theorem splitNames_singleton (hne : name ≠ []) (hname : ∀ c ∈ name, Head.isTagChar c = true) :
    splitNames [name] = [Text.toAsciiLower name] := by
  have hcomma : ',' ∉ name := by
    intro hmem
    exact absurd (hname ',' hmem) (by decide)
  have htrim : Text.trim name = name := by
    refine Text.trim_eq_self_of_forall fun c hc => ?_
    rw [← Bool.not_eq_true]
    intro hblank
    exact Bool.false_ne_true ((Head.isTagChar_eq_false_of_isBlank hblank).symm.trans (hname c hc))
  have hlower : Text.toLower name = Text.toAsciiLower name :=
    Text.toLower_eq_toAsciiLower fun c hc => Head.isAscii_of_isTagChar (hname c hc)
  have hne' : (Text.toAsciiLower name).isEmpty = false := by
    rw [List.isEmpty_eq_false_iff]
    simpa [Text.toAsciiLower] using hne
  simp [splitNames, Text.splitOn_of_not_mem hcomma, htrim, hlower, hne']

/-- Only capitals are changed. -/
theorem splitNames_of_small (hne : name ≠ []) (hname : ∀ c ∈ name, Head.isTagChar c = true)
    (hsmall : ∀ c ∈ name, c.isUpper = false) : splitNames [name] = [name] := by
  rw [splitNames_singleton hne hname, Text.toAsciiLower_eq_self
    (fun c hc => Head.isAscii_of_isTagChar (hname c hc)) hsmall]

/-- Small letters are put into small letters as they are. -/
theorem splitNames_toLower (hne : name ≠ []) (hname : ∀ c ∈ name, Head.isTagChar c = true) :
    splitNames [Text.toLower name] = splitNames [name] := by
  have hascii : ∀ c ∈ name, Text.IsAscii c := fun c hc => Head.isAscii_of_isTagChar (hname c hc)
  have hne' : Text.toAsciiLower name ≠ [] := by
    simpa [Text.toAsciiLower] using hne
  have hname' : ∀ c ∈ Text.toAsciiLower name, Head.isTagChar c = true := by
    intro c hc
    obtain ⟨d, hd, rfl⟩ := List.mem_map.1 hc
    exact Head.isTagChar_toLower (hname d hd)
  rw [Text.toLower_eq_toAsciiLower hascii, splitNames_singleton hne' hname',
    splitNames_singleton hne hname, Text.toAsciiLower_toAsciiLower hascii]

/-- Names are used only as they are split, once it is known that some are given. -/
theorem extract_congr_names (options : ExtractionOptions) {keep keep' remove remove' : List Text}
    (hkeep : splitNames keep = splitNames keep') (hremove : splitNames remove = splitNames remove')
    (hgiven : (keep.isEmpty && remove.isEmpty) = (keep'.isEmpty && remove'.isEmpty))
    (source : Text) :
    extract { options with keep := keep, remove := remove } source =
      extract { options with keep := keep', remove := remove' } source := by
  have hmodes : ExtractionOptions.modes { options with keep := keep, remove := remove } =
      ExtractionOptions.modes { options with keep := keep', remove := remove' } := by
    rw [ExtractionOptions.modes, ExtractionOptions.modes]
    dsimp only
    rw [hgiven]
  have hchoose (tree : LineTree) : choose { options with keep := keep, remove := remove } tree =
      choose { options with keep := keep', remove := remove' } tree := by
    rw [choose, choose, bySections, bySections]
    dsimp only
    rw [hkeep, hremove]
  simp only [extract, hmodes, hchoose]
  rfl

/-! ## Lines with a name -/

/-- A line with an identifier or a class has it as a name, unless it is a name for other lines. -/
theorem isNamedAt_of_ownName (hline : tree.lines[i]? = some line)
    (helement : line.kind.isElement = true) (hscan : Head.scan? line.content = some head)
    (hname : head.id? = some name ∨ name ∈ head.classes)
    (hplain : name ∉ "doctype".toList :: lineNames) : tree.IsNamedAt [name] i := by
  obtain ⟨hdoctype, hlineName⟩ := not_or.1 (mt List.mem_cons.2 hplain)
  have hhead : headIsNamed head name = true := by
    rw [headIsNamed, Head.hasClass, Bool.or_eq_true, Bool.or_eq_true, decide_eq_true_eq,
      List.contains_iff_mem]
    rcases hname with hid | hclass
    · exact Or.inl (Or.inr hid)
    · exact Or.inr hclass
  refine (isNamedAt_iff hline).2 (List.any_eq_true.2 ⟨name, List.mem_singleton_self name, ?_⟩)
  rw [isNamed, if_neg hdoctype, if_neg (mt List.contains_iff_mem.1 hlineName), helement, hscan]
  exact hhead

/-- What stands before the block end of a root is in its block. -/
theorem inRegion_of_lt_blockEnd {root : Nat → Prop} (hroot : root i) (hij : i ≤ j)
    (hend : j < tree.blockEnd i) : tree.InRegion root j :=
  ⟨i, hroot, (mem_block_iff.1 ⟨hij, hend⟩).2⟩

theorem lt_length_of_lt_blockEnd (hij : i ≤ j) (hend : j < tree.blockEnd i) :
    j < tree.lines.length := by
  obtain ⟨hi, hencloses⟩ := mem_block_iff.1 ⟨hij, hend⟩
  exact hencloses.lt_length hi

/-- A source with a named line is not blank. -/
theorem exists_visible {names : List Text} {layout : Layout}
    (h : (LineTree.ofSource layout source).IsNamedAt names i) :
    ∃ text ∈ Text.lines source, Text.trim text ≠ [] := by
  obtain ⟨line, hline, -⟩ := h
  by_contra hblank
  have hnil : (LineTree.ofSource layout source).lines = [] :=
    SlimLine.ofSource_eq_nil_iff.2 fun text htext =>
      by_contra fun hne => hblank ⟨text, htext, hne⟩
  rw [hnil] at hline
  cases hline

/-! ## A single name -/

theorem not_isConflicting_sections (rejects : Bool) :
    (rejects && decide (1 < [ExtractionMode.sections].length)) = false :=
  Bool.and_false rejects

/-- What stands in a block with the name is not kept. -/
theorem not_isKept_removing (hsplit : splitNames [name] = [name])
    (hregion : tree.InRegion (tree.IsNamedAt [name]) j) : ¬IsKept (options.removing name) tree j := by
  have hremoved : removedNames (options.removing name) = [name] := by
    rw [removedNames, ExtractionOptions.removing]
    dsimp only
    rw [hsplit]
    rfl
  rintro ⟨-, hout⟩
  exact (hremoved ▸ hout) hregion

/-- What stands in a block with the name is in a block that is asked for. -/
theorem isInBlock_keeping (hsplit : splitNames [name] = [name]) (hj : j < tree.lines.length)
    (hregion : tree.InRegion (tree.IsNamedAt [name]) j) :
    IsInBlock (options.keeping name) tree j := by
  have hroot : IsRootAt (options.keeping name) tree = tree.IsNamedAt [name] := by
    funext i
    rw [← hsplit]
    rfl
  exact ⟨hj, hroot ▸ hregion⟩

/-- To remove a name drops the block of a line that has it. -/
theorem exists_keepsTree_removing (hsplit : splitNames [name] = [name])
    (hnamed : (LineTree.ofSource options.layout source).IsNamedAt [name] i) :
    ∃ result places, extract (options.removing name) source = .ok result ∧
      KeepsTree (options.removing name) (.ofSource options.layout source)
        (.ofSource options.layout result.content) places ∧
      ∀ j, i ≤ j → j < (LineTree.ofSource options.layout source).blockEnd i → j ∉ places := by
  obtain ⟨lines, summary, chosen, hchoose, hlines, hkept⟩ :=
    @exists_choose_isKept (options.removing name) (Or.inr ⟨rfl, rfl⟩)
      (.ofSource options.layout source)
  obtain ⟨result, places, hextract, hcutout, hmem⟩ := exists_extract (exists_visible hnamed)
    (not_isConflicting_sections options.rejectConflicts) rfl rfl hchoose hlines
  have hchosen := funext fun i => propext (hkept i)
  have hkeeps : KeepsTree (options.removing name) (.ofSource options.layout source)
      (.ofSource options.layout result.content) places := by
    refine keepsTree_of_isCutout hcutout fun i => ?_
    rw [hchosen]
    exact hmem i
  refine ⟨result, places, hextract, hkeeps, fun j hij hend hj => ?_⟩
  exact not_isKept_removing hsplit (inRegion_of_lt_blockEnd hnamed hij hend)
    ((hkeeps.mem_places j).1 hj).1

/-- To keep a name keeps the block of a line that has it, but for orphaned comments. -/
theorem exists_keepsBlocks_keeping (hsplit : splitNames [name] = [name])
    (hnamed : (LineTree.ofSource options.layout source).IsNamedAt [name] i) :
    ∃ result places, extract (options.keeping name) source = .ok result ∧
      KeepsBlocks (options.keeping name) (.ofSource options.layout source)
        (.ofSource options.layout result.content) places ∧
      ∀ j, i ≤ j → j < (LineTree.ofSource options.layout source).blockEnd i →
        (j ∈ places ↔ (LineTree.ofSource options.layout source).Survives
          (IsInBlock (options.keeping name) (.ofSource options.layout source)) j) := by
  obtain ⟨lines, summary, hchoose, hlines⟩ :=
    @exists_choose_isInBlock (options.keeping name) rfl
      (Or.inr ⟨rfl, by rw [ExtractionOptions.keeping, hsplit]; exact List.cons_ne_nil name []⟩)
      (.ofSource options.layout source)
  obtain ⟨result, places, hextract, hcutout, hmem⟩ := exists_extract (exists_visible hnamed)
    (not_isConflicting_sections options.rejectConflicts) rfl rfl hchoose hlines
  have hkeeps : KeepsBlocks (options.keeping name) (.ofSource options.layout source)
      (.ofSource options.layout result.content) places := keepsBlocks_of_isCutout hcutout hmem
  refine ⟨result, places, hextract, hkeeps, fun j hij hend => ?_⟩
  rw [hkeeps.mem_places, and_iff_right]
  exact isInBlock_keeping hsplit (lt_length_of_lt_blockEnd hij hend)
    (inRegion_of_lt_blockEnd hnamed hij hend)

end Extraction

/-- The identifier and the classes of a line are names that are taken in small letters. One without
capitals removes the line with all that stands below it, and it keeps the line with all of this but
for comments that have nothing to comment on. -/
theorem extract_ownName
    (hline : (LineTree.ofSource options.layout source).lines[i]? = some line)
    (helement : line.kind.isElement = true) (hscan : Head.scan? line.content = some head)
    (hname : head.id? = some name ∨ name ∈ head.classes) :
    let tree := LineTree.ofSource options.layout source
    extract (options.removing (Text.toLower name)) source =
      extract (options.removing name) source ∧
    extract (options.keeping (Text.toLower name)) source =
      extract (options.keeping name) source ∧
    (name ∉ "doctype".toList :: lineNames → (∀ c ∈ name, c.isUpper = false) →
      (∃ result places, extract (options.removing name) source = .ok result ∧
        KeepsTree (options.removing name) tree (.ofSource options.layout result.content) places ∧
        ∀ j, i ≤ j → j < tree.blockEnd i → j ∉ places) ∧
      ∃ result places, extract (options.keeping name) source = .ok result ∧
        KeepsBlocks (options.keeping name) tree (.ofSource options.layout result.content) places ∧
        i ∈ places ∧
        ∀ j, i ≤ j → j < tree.blockEnd i →
          (j ∈ places ↔ tree.Survives (IsInBlock (options.keeping name) tree) j)) := by
  intro tree
  obtain ⟨mark, hmark, rfl⟩ := Head.exists_isName hscan hname
  have hlower := splitNames_toLower hmark.name_ne_nil hmark.isTagChar
  refine ⟨extract_congr_names (options.removing mark.name) rfl hlower rfl source,
    extract_congr_names (options.keeping mark.name) hlower rfl rfl source, fun hplain hsmall => ?_⟩
  have hsplit := splitNames_of_small hmark.name_ne_nil hmark.isTagChar hsmall
  have hnamed : tree.IsNamedAt [mark.name] i :=
    isNamedAt_of_ownName hline helement hscan hname hplain
  refine ⟨exists_keepsTree_removing hsplit hnamed, ?_⟩
  obtain ⟨result, places, hextract, hkeeps, hiff⟩ := exists_keepsBlocks_keeping hsplit hnamed
  refine ⟨result, places, hextract, hkeeps, ?_, hiff⟩
  have hself : i ∈ tree.block i :=
    mem_block_iff.2 ⟨(List.getElem?_eq_some_iff.1 hline).1, Relation.ReflTransGen.refl⟩
  -- An element is no comment, so nothing has to follow it.
  rw [hiff i le_rfl hself.2]
  intro hcomment
  rw [isCommentAt_iff hline, LineKind.isComment_eq_false_of_isElement helement] at hcomment
  cases hcomment

/-- A card in another, with a comment at its end, and a line that is no card. -/
def cardInCard : Text :=
  "section#top.card A\n  p B\n    .card C\n  / end of card\np D\n".toList

/-- The cards are removed with the comment, or kept without it. -/
theorem extract_ownName_cardInCard :
    let tree := LineTree.ofSource .standard cardInCard
    let name := "card".toList
    tree.blockEnd 0 = 4 ∧
    (∃ result, ∃ places : List Nat,
      extract (ExtractionOptions.standard.removing name) cardInCard = .ok result ∧
      result.content = "p D\n".toList ∧ ∀ j < 4, j ∉ places) ∧
    ∃ result, ∃ places : List Nat,
      extract (ExtractionOptions.standard.keeping name) cardInCard = .ok result ∧
      result.content = "section#top.card A\n  p B\n    .card C\n".toList ∧ 0 ∈ places ∧
      ∀ j < 4, (j ∈ places ↔
        tree.Survives (IsInBlock (ExtractionOptions.standard.keeping name) tree) j) := by
  intro tree name
  have hend : tree.blockEnd 0 = 4 := by decide +kernel
  obtain ⟨-, -, hplain⟩ := @extract_ownName .standard cardInCard name 0
    ⟨"section#top.card A".toList, "section#top.card A".toList, 0, 1, .element⟩
    ⟨some "section".toList, [⟨'#', "top".toList⟩, ⟨'.', name⟩], none, " A".toList⟩
    (by decide +kernel) rfl (by decide +kernel) (Or.inr (by decide +kernel))
  obtain ⟨⟨removed, others, hremove, -, hothers⟩, kept, places, hkeep, -, hroot, hplaces⟩ :=
    hplain (by decide +kernel) (Text.forall_of_all (by decide))
  have hremoved : (extract (ExtractionOptions.standard.removing name) cardInCard).map
      Extract.content = .ok "p D\n".toList := by
    decide +kernel
  have hkept : (extract (ExtractionOptions.standard.keeping name) cardInCard).map
      Extract.content = .ok "section#top.card A\n  p B\n    .card C\n".toList := by
    decide +kernel
  rw [hremove] at hremoved
  rw [hkeep] at hkept
  exact ⟨hend, ⟨removed, others, hremove, Except.ok.inj hremoved,
      fun j hj => hothers j (Nat.zero_le j) (hend ▸ hj)⟩,
    kept, places, hkeep, Except.ok.inj hkept, hroot,
      fun j hj => hplaces j (Nat.zero_le j) (hend ▸ hj)⟩

/-- A class with a capital removes nothing, though the line has it. And a class keeps its line
without the comment below it, though the comment belongs to the block. -/
theorem extract_ownName_ne :
    let capital := ".Card A\np B\n".toList
    let commented := ".card A\n  / note\n".toList
    let classes (line : SlimLine) := (line.kind, (Head.scan? line.content).map Head.classes)
    (LineTree.ofSource .standard capital).lines[0]?.map classes =
      some (.shorthand, some ["Card".toList]) ∧
    (extract (ExtractionOptions.standard.removing "Card".toList) capital).map Extract.content =
      .ok capital ∧
    (LineTree.ofSource .standard commented).lines[0]?.map classes =
      some (.shorthand, some ["card".toList]) ∧
    (LineTree.ofSource .standard commented).blockEnd 0 = 2 ∧
    (extract (ExtractionOptions.standard.keeping "card".toList) commented).map Extract.content =
      .ok ".card A\n".toList := by
  decide +kernel

end SlimTemplate
