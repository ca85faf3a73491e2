import SlimTemplate.Proofs.Directive.Balance
import SlimTemplate.Proofs.Directive.Piecewise

/-!
# Markers nest as the blocks of a program do

A program is a row of text, of directives without a part in the structure of blocks, and of
blocks: a directive that opens the block, what it encloses, branches, and the end. The passes turn
each block into templates side by side, one for what opens it and one for each branch, around what
these enclose.

## Main definitions

* `Directive.Program`: well-nested programs.
* `Directive.Program.forest`: the templates that stand for the blocks.
* `Directive.Program.leaves`: text and directives in a program, with how many blocks enclose them.

## Main statements

* `Directive.Program.toMarkup_eq_render`: the markup of a program.
-/

namespace SlimTemplate.Directive

/-! ## Texts without tags -/

/-- Text and directives in a row. -/
inductive IsTagFree : Text → Prop
  | nil : IsTagFree []
  | text {content rest : Text} (h : '<' ∉ content) (hrest : IsTagFree rest) :
    IsTagFree (content ++ rest)
  /-- A directive, and what follows it. -/
  | directive {inner rest : Text} (h : IsPlain inner) (hrest : IsTagFree rest) :
    IsTagFree (delimited inner ++ rest)

theorem IsTagFree.append {a b : Text} (ha : IsTagFree a) (hb : IsTagFree b) :
    IsTagFree (a ++ b) := by
  induction ha with
  | nil => exact hb
  | text h _ ih =>
    rw [List.append_assoc]
    exact .text h ih
  | directive h _ ih =>
    rw [List.append_assoc]
    exact .directive h ih

theorem isTagFree_text {content : Text} (h : '<' ∉ content) : IsTagFree content := by
  rw [← List.append_nil content]
  exact .text h .nil

theorem IsOneLine.isTagFree {d : Directive} (h : d.IsOneLine) : IsTagFree d.source := by
  obtain ⟨inner, hsource, hplain, -⟩ := h.exists_inner
  rw [hsource, ← List.append_nil (delimited inner)]
  exact .directive hplain .nil

theorem IsTagFree.setAsideFrom_eq {text : Text} (h : IsTagFree text) (n : Nat) :
    setAsideFrom n .outside text = (text, []) := by
  induction h with
  | nil => rw [setAsideFrom]
  | text h _ ih => rw [setAsideFrom_outside_append n h, ih]
  | directive h _ ih => rw [setAsideFrom_delimited n h, ih]

/-- Nothing is set aside where there are no tags. -/
theorem IsTagFree.toMarkup_eq {text : Text} (h : IsTagFree text) :
    toMarkup text = rewrite text := by
  rw [Directive.toMarkup_eq, setAside, h.setAsideFrom_eq, putBack_nil]

theorem IsTagFree.rewrite_append {a : Text} (h : IsTagFree a) (b : Text) :
    rewrite (a ++ b) = rewrite a ++ rewrite b := by
  have hnil : IsInert [] := trivial
  induction h with
  | nil => rw [rewrite_of_isInert hnil, List.nil_append, List.nil_append]
  | text h _ ih =>
    have hseparate : IsSeparate _ := .inert (isInert_of_not_mem h)
    rw [List.append_assoc, Directive.rewrite_append hseparate, ih,
      Directive.rewrite_append hseparate, List.append_assoc]
  | directive h _ ih =>
    have hseparate : IsSeparate _ := .delimited h
    rw [List.append_assoc, Directive.rewrite_append hseparate, ih,
      Directive.rewrite_append hseparate, List.append_assoc]

/-! ## Programs -/

mutual

/-- A well-nested program. -/
inductive Program where
  | done
  | text (content : Text) (rest : Program)
  /-- A directive without a part in the structure of blocks, and what follows it. -/
  | leaf (d : Directive) (rest : Program)
  /-- A block: what opens it and what that encloses, how it goes on, and what follows it. -/
  | block (opener : Directive) (body : Program) (more : Branches) (rest : Program)

/-- How a block goes on. -/
inductive Branches where
  | stop (terminator : Directive)
  /-- It has a further branch, and what that encloses. -/
  | branch (d : Directive) (body : Program) (more : Branches)

end

mutual

/-- A program as written. -/
def Program.source : Program → Text
  | .done => []
  | .text content rest => content ++ rest.source
  | .leaf d rest => d.source ++ rest.source
  | .block opener body more rest =>
    opener.source ++ (body.source ++ (more.source ++ rest.source))

/-- The branches of a block as written, with its end. -/
def Branches.source : Branches → Text
  | .stop terminator => terminator.source
  | .branch d body more => d.source ++ (body.source ++ more.source)

end

mutual

/-- Whether text opens nothing, and all directives are on one line and have their roles. -/
def Program.IsWellFormed : Program → Prop
  | .done => True
  | .text content rest => '<' ∉ content ∧ rest.IsWellFormed
  | .leaf d rest => d.IsOneLine ∧ d.isLeaf = true ∧ rest.IsWellFormed
  | .block opener body more rest =>
    opener.IsOneLine ∧ opener.isOpener = true ∧ body.IsWellFormed ∧ more.IsWellFormed ∧
      rest.IsWellFormed

/-- Whether branches are on one line and have their roles, and so does the end. -/
def Branches.IsWellFormed : Branches → Prop
  | .stop terminator => terminator.IsOneLine ∧ terminator.isTerminator = true
  | .branch d body more =>
    d.IsOneLine ∧ d.isBranch = true ∧ d.isOpener = false ∧ body.IsWellFormed ∧ more.IsWellFormed

end

mutual

/-- The templates of a program: side by side for each block, one for what opens it and one for
each branch, each with the code of its directive. -/
def Program.forest : Program → Forest
  | .done => .nil
  | .text content rest => .leaf content rest.forest
  | .leaf d rest => .leaf (leafMarkup d) rest.forest
  | .block opener body more rest =>
    .template (markerValue opener) body.forest (more.forest rest.forest)

/-- The templates of branches, before those of what follows the block. -/
def Branches.forest (rest : Forest) : Branches → Forest
  | .stop _ => rest
  | .branch d body more => .template d.code body.forest (more.forest rest)

end

/-- A piece of text or a directive in a program. -/
structure Leaf where
  /-- The number of blocks that enclose it. -/
  depth : Nat
  /-- The program before it, as written. -/
  before : Text
  source : Text
  markup : Text

mutual

/-- The pieces of text and the directives without a part in the structure of blocks, in a program
that so many blocks enclose and that so much stands before. -/
def Program.leaves (depth : Nat) (before : Text) : Program → List Leaf
  | .done => []
  | .text content rest =>
    ⟨depth, before, content, content⟩ :: rest.leaves depth (before ++ content)
  | .leaf d rest =>
    ⟨depth, before, d.source, leafMarkup d⟩ :: rest.leaves depth (before ++ d.source)
  | .block opener body more rest =>
    body.leaves (depth + 1) (before ++ opener.source) ++
      more.leaves (depth + 1) (before ++ opener.source ++ body.source) ++
      rest.leaves depth (before ++ opener.source ++ body.source ++ more.source)

/-- Those in the branches of a block. -/
def Branches.leaves (depth : Nat) (before : Text) : Branches → List Leaf
  | .stop _ => []
  | .branch d body more =>
    body.leaves depth (before ++ d.source) ++
      more.leaves depth (before ++ d.source ++ body.source)

end

/-! ## Templates of a program -/

theorem endsBlock_of_isTerminator {d : Directive} (h : d.isTerminator = true) :
    d.endsBlock = true := by
  rw [isTerminator, Bool.and_eq_true] at h
  rw [endsBlock, Bool.and_eq_true, Bool.or_eq_true]
  exact ⟨h.1, Or.inl h.2⟩

mutual

theorem Program.source_isTagFree : (program : Program) → program.IsWellFormed →
    IsTagFree program.source
  | .done, _ => .nil
  | .text _ rest, h => .text h.1 (rest.source_isTagFree h.2)
  | .leaf _ rest, h => h.1.isTagFree.append (rest.source_isTagFree h.2.2)
  | .block _ body more rest, h =>
    h.1.isTagFree.append ((body.source_isTagFree h.2.2.1).append
      ((more.source_isTagFree h.2.2.2.1).append (rest.source_isTagFree h.2.2.2.2)))

theorem Branches.source_isTagFree : (branches : Branches) → branches.IsWellFormed →
    IsTagFree branches.source
  | .stop _, h => h.1.isTagFree
  | .branch _ body more, h =>
    h.1.isTagFree.append ((body.source_isTagFree h.2.2.2.1).append
      (more.source_isTagFree h.2.2.2.2))

end

mutual

/-- A program is rewritten to its templates. -/
theorem Program.rewrite_source : (program : Program) → program.IsWellFormed →
    rewrite program.source = program.forest.render
  | .done, _ => by
    have hnil : IsInert [] := trivial
    rw [Program.source, rewrite_of_isInert hnil, Program.forest, Forest.render]
  | .text content rest, h => by
    have hinert := isInert_of_not_mem h.1
    rw [Program.source, Directive.rewrite_append (.inert hinert), rewrite_of_isInert hinert,
      rest.rewrite_source h.2, Program.forest, Forest.render]
  | .leaf d rest, h => by
    rw [Program.source, h.1.isTagFree.rewrite_append, rewrite_leaf h.1 h.2.1,
      rest.rewrite_source h.2.2, Program.forest, Forest.render]
  | .block opener body more rest, h => by
    obtain ⟨hline, hopener, hbody, hmore, hrest⟩ := h
    rw [Program.source, hline.isTagFree.rewrite_append, rewrite_opener hline hopener,
      (body.source_isTagFree hbody).rewrite_append, body.rewrite_source hbody,
      (more.source_isTagFree hmore).rewrite_append, rest.rewrite_source hrest,
      more.rewrite_source hmore rest.forest, Program.forest, Forest.render]
    simp only [List.append_assoc]

/-- The branches of a block are rewritten to the end of the template before and to theirs. -/
theorem Branches.rewrite_source : (branches : Branches) → branches.IsWellFormed →
    ∀ rest : Forest,
      rewrite branches.source ++ rest.render = closingTag ++ (branches.forest rest).render
  | .stop terminator, h, rest => by
    rw [Branches.source, rewrite_terminator h.1 (endsBlock_of_isTerminator h.2), Branches.forest]
  | .branch d body more, h, rest => by
    obtain ⟨hline, hbranch, hopener, hbody, hmore⟩ := h
    rw [Branches.source, hline.isTagFree.rewrite_append, rewrite_branch hline hbranch hopener,
      (body.source_isTagFree hbody).rewrite_append, body.rewrite_source hbody, List.append_assoc,
      List.append_assoc, List.append_assoc, more.rewrite_source hmore rest, Branches.forest,
      Forest.render]
    simp only [List.append_assoc]

end

/-! ## Balance -/

theorem leafMarkup_isTagless {d : Directive} (h : d.IsOneLine) : IsTagless (leafMarkup d) := by
  have hcode := isPlain_code h.plain
  unfold leafMarkup
  split
  · exact encode_isTagless .output hcode
  · split
    · exact isTagless_of_not_mem List.not_mem_nil
    · exact encode_isTagless .code hcode

theorem lt_not_mem_markerValue {d : Directive} (h : d.IsOneLine) : '<' ∉ markerValue d :=
  not_mem_markerValue (by decide) (isPlain_code h.plain).1

mutual

theorem Program.forest_isClean : (program : Program) → program.IsWellFormed →
    program.forest.IsClean
  | .done, _ => trivial
  | .text _ rest, h => ⟨isTagless_of_not_mem h.1, rest.forest_isClean h.2⟩
  | .leaf _ rest, h => ⟨leafMarkup_isTagless h.1, rest.forest_isClean h.2.2⟩
  | .block _ body more rest, h =>
    ⟨lt_not_mem_markerValue h.1, body.forest_isClean h.2.2.1,
      more.forest_isClean h.2.2.2.1 (rest.forest_isClean h.2.2.2.2)⟩

theorem Branches.forest_isClean : (branches : Branches) → branches.IsWellFormed →
    ∀ {rest : Forest}, rest.IsClean → (branches.forest rest).IsClean
  | .stop _, _, _, hrest => hrest
  | .branch _ body more, h, _, hrest =>
    ⟨(isPlain_code h.1.plain).1, body.forest_isClean h.2.2.2.1,
      more.forest_isClean h.2.2.2.2 hrest⟩

end

theorem Program.rewrite_isBalanced (program : Program) (h : program.IsWellFormed) :
    IsBalanced (rewrite program.source) := by
  rw [program.rewrite_source h]
  exact Forest.render_isBalanced _ (program.forest_isClean h)

/-- The branches of a block end one template more than they open. -/
theorem Branches.rewrite_eq (branches : Branches) (h : branches.IsWellFormed) :
    ∃ text, rewrite branches.source = closingTag ++ text ∧ IsBalanced text := by
  have hnil : Forest.IsClean .nil := trivial
  have heq := branches.rewrite_source h .nil
  rw [Forest.render, List.append_nil] at heq
  exact ⟨_, heq, Forest.render_isBalanced _ (branches.forest_isClean h hnil)⟩

/-! ## Leaves -/

/-- Text without tags whose markup has opened so many templates that it has not closed. -/
structure IsAtDepth (before : Text) (depth : Nat) : Prop where
  /-- It is text and directives in a row. -/
  tagFree : IsTagFree before
  closed : IsClosed (rewrite before)
  openings_eq : openings (rewrite before) = closings (rewrite before) + depth

theorem isAtDepth_nil : IsAtDepth [] 0 := by
  have hnil : IsInert [] := trivial
  refine ⟨.nil, ?_, ?_⟩
  · rw [rewrite_of_isInert hnil]
    trivial
  · rw [rewrite_of_isInert hnil]
    rfl

/-- What is balanced leaves the depth as it is. -/
theorem IsAtDepth.append {before text : Text} {depth : Nat} (h : IsAtDepth before depth)
    (htext : IsTagFree text) (hbalanced : IsBalanced (rewrite text)) :
    IsAtDepth (before ++ text) depth := by
  refine ⟨h.tagFree.append htext, ?_, ?_⟩
  · rw [h.tagFree.rewrite_append]
    exact h.closed.append hbalanced.closed
  · rw [h.tagFree.rewrite_append, openings_append h.closed, closings_append h.closed,
      h.openings_eq, hbalanced.closings_eq]
    omega

theorem IsAtDepth.append_opener {before : Text} {depth : Nat} (h : IsAtDepth before depth)
    {d : Directive} (hline : d.IsOneLine) (hopener : d.isOpener = true) :
    IsAtDepth (before ++ d.source) (depth + 1) := by
  have hmarkup := rewrite_opener hline hopener
  obtain ⟨hopen, hclose⟩ := count_openingTag (lt_not_mem_markerValue hline)
  refine ⟨h.tagFree.append hline.isTagFree, ?_, ?_⟩
  · rw [h.tagFree.rewrite_append, hmarkup]
    exact h.closed.append openingTag_isClosed
  · rw [h.tagFree.rewrite_append, hmarkup, openings_append h.closed, closings_append h.closed,
      h.openings_eq, hopen, hclose]
    omega

theorem IsAtDepth.append_branch {before : Text} {depth : Nat} (h : IsAtDepth before (depth + 1))
    {d : Directive} (hline : d.IsOneLine) (hbranch : d.isBranch = true)
    (hopener : d.isOpener = false) : IsAtDepth (before ++ d.source) (depth + 1) := by
  have hmarkup := rewrite_branch hline hbranch hopener
  have hcode := (isPlain_code hline.plain).1
  obtain ⟨hopen, hclose⟩ := count_openingTag hcode
  obtain ⟨hopen', hclose'⟩ := count_closingTag
  have hclosed := closingTag_isMarkup.isClosed
  refine ⟨h.tagFree.append hline.isTagFree, ?_, ?_⟩
  · rw [h.tagFree.rewrite_append, hmarkup]
    exact h.closed.append (hclosed.append openingTag_isClosed)
  · rw [h.tagFree.rewrite_append, hmarkup, openings_append h.closed, closings_append h.closed,
      openings_append hclosed, closings_append hclosed, h.openings_eq, hopen, hclose, hopen',
      hclose']
    omega

/-- The branches of a block and its end lead out of the block. -/
theorem IsAtDepth.append_branches {before : Text} {depth : Nat}
    (h : IsAtDepth before (depth + 1)) {branches : Branches} (hbranches : branches.IsWellFormed) :
    IsAtDepth (before ++ branches.source) depth := by
  obtain ⟨text, hmarkup, hbalanced⟩ := branches.rewrite_eq hbranches
  obtain ⟨hopen, hclose⟩ := count_closingTag
  have hclosed := closingTag_isMarkup.isClosed
  refine ⟨h.tagFree.append (branches.source_isTagFree hbranches), ?_, ?_⟩
  · rw [h.tagFree.rewrite_append, hmarkup]
    exact h.closed.append (hclosed.append hbalanced.closed)
  · rw [h.tagFree.rewrite_append, hmarkup, openings_append h.closed, closings_append h.closed,
      openings_append hclosed, closings_append hclosed, h.openings_eq, hopen, hclose,
      hbalanced.closings_eq]
    omega

/-- A leaf in a text: the text around it, what it is rewritten to, and how deep it lies. -/
structure Leaf.IsIn (leaf : Leaf) (text : Text) : Prop where
  exists_after : ∃ after, IsTagFree after ∧ text = leaf.before ++ (leaf.source ++ after)
  /-- It is text or a directive. -/
  tagFree : IsTagFree leaf.source
  /-- It is rewritten on its own. -/
  rewrite_eq : rewrite leaf.source = leaf.markup
  /-- It lies in as many templates as blocks enclose it. -/
  atDepth : IsAtDepth leaf.before leaf.depth

theorem Leaf.IsIn.append {leaf : Leaf} {text more : Text} (h : leaf.IsIn text)
    (hmore : IsTagFree more) : leaf.IsIn (text ++ more) := by
  obtain ⟨after, hafter, heq⟩ := h.exists_after
  refine ⟨⟨after ++ more, hafter.append hmore, ?_⟩, h.tagFree, h.rewrite_eq, h.atDepth⟩
  rw [heq]
  simp only [List.append_assoc]

mutual

theorem Program.isIn_of_mem_leaves : (program : Program) → program.IsWellFormed →
    ∀ {depth : Nat} {before : Text}, IsAtDepth before depth →
      ∀ leaf ∈ program.leaves depth before, leaf.IsIn (before ++ program.source)
  | .done, _, _, _, _, _, hleaf => by simp [Program.leaves] at hleaf
  | .text content rest, h, depth, before, hbefore, leaf, hleaf => by
    have hinert := isInert_of_not_mem h.1
    have hcontent := isTagFree_text h.1
    rw [Program.source]
    rcases List.mem_cons.1 hleaf with rfl | hleaf
    · exact ⟨⟨rest.source, rest.source_isTagFree h.2, rfl⟩, hcontent,
        rewrite_of_isInert hinert, hbefore⟩
    · rw [← List.append_assoc]
      refine rest.isIn_of_mem_leaves h.2 (hbefore.append hcontent ?_) leaf hleaf
      rw [rewrite_of_isInert hinert]
      exact (isTagless_of_not_mem h.1).isBalanced
  | .leaf d rest, h, depth, before, hbefore, leaf, hleaf => by
    have hmarkup := rewrite_leaf h.1 h.2.1
    rw [Program.source]
    rcases List.mem_cons.1 hleaf with rfl | hleaf
    · exact ⟨⟨rest.source, rest.source_isTagFree h.2.2, rfl⟩, h.1.isTagFree, hmarkup, hbefore⟩
    · rw [← List.append_assoc]
      refine rest.isIn_of_mem_leaves h.2.2 (hbefore.append h.1.isTagFree ?_) leaf hleaf
      rw [hmarkup]
      exact (leafMarkup_isTagless h.1).isBalanced
  | .block opener body more rest, h, depth, before, hbefore, leaf, hleaf => by
    obtain ⟨hline, hopener, hbody, hmore, hrest⟩ := h
    have hbodyFree := body.source_isTagFree hbody
    have hmoreFree := more.source_isTagFree hmore
    have hrestFree := rest.source_isTagFree hrest
    have hinside := hbefore.append_opener hline hopener
    have hbehind := hinside.append hbodyFree (body.rewrite_isBalanced hbody)
    have houtside := hbehind.append_branches hmore
    have hsource : before ++ (Program.block opener body more rest).source =
        before ++ opener.source ++ body.source ++ more.source ++ rest.source := by
      simp only [Program.source, List.append_assoc]
    rw [hsource]
    rw [Program.leaves, List.mem_append, List.mem_append] at hleaf
    rcases hleaf with (hleaf | hleaf) | hleaf
    · exact ((body.isIn_of_mem_leaves hbody hinside leaf hleaf).append hmoreFree).append hrestFree
    · exact (more.isIn_of_mem_leaves hmore hbehind leaf hleaf).append hrestFree
    · exact rest.isIn_of_mem_leaves hrest houtside leaf hleaf

theorem Branches.isIn_of_mem_leaves : (branches : Branches) → branches.IsWellFormed →
    ∀ {depth : Nat} {before : Text}, IsAtDepth before (depth + 1) →
      ∀ leaf ∈ branches.leaves (depth + 1) before, leaf.IsIn (before ++ branches.source)
  | .stop _, _, _, _, _, _, hleaf => by simp [Branches.leaves] at hleaf
  | .branch d body more, h, depth, before, hbefore, leaf, hleaf => by
    obtain ⟨hline, hbranch, hopener, hbody, hmore⟩ := h
    have hbodyFree := body.source_isTagFree hbody
    have hinside := hbefore.append_branch hline hbranch hopener
    have hbehind := hinside.append hbodyFree (body.rewrite_isBalanced hbody)
    have hsource : before ++ (Branches.branch d body more).source =
        before ++ d.source ++ body.source ++ more.source := by
      simp only [Branches.source, List.append_assoc]
    rw [hsource]
    rw [Branches.leaves, List.mem_append] at hleaf
    rcases hleaf with hleaf | hleaf
    · exact (body.isIn_of_mem_leaves hbody hinside leaf hleaf).append
        (more.source_isTagFree hmore)
    · exact more.isIn_of_mem_leaves hmore hbehind leaf hleaf

end

/-- The markup of a program is its templates: balanced as text, with each piece of text and each
directive outside of the structure of blocks as deep in templates as it is in blocks. -/
theorem Program.toMarkup_eq_render (program : Program) (h : program.IsWellFormed) :
    toMarkup program.source = program.forest.render ∧
      IsBalanced (toMarkup program.source) ∧
      ∀ leaf ∈ program.leaves 0 [],
        ∃ after, program.source = leaf.before ++ (leaf.source ++ after) ∧
          toMarkup program.source = toMarkup leaf.before ++ (leaf.markup ++ toMarkup after) ∧
          openings (toMarkup leaf.before) = closings (toMarkup leaf.before) + leaf.depth := by
  rw [(program.source_isTagFree h).toMarkup_eq]
  refine ⟨program.rewrite_source h, program.rewrite_isBalanced h, ?_⟩
  intro leaf hleaf
  have hin := program.isIn_of_mem_leaves h isAtDepth_nil leaf hleaf
  rw [List.nil_append] at hin
  obtain ⟨⟨after, hafter, heq⟩, hfree, hmarkup, hdepth⟩ := hin
  refine ⟨after, heq, ?_, ?_⟩
  · rw [heq, hdepth.tagFree.rewrite_append, hfree.rewrite_append, hmarkup,
      hdepth.tagFree.toMarkup_eq, hafter.toMarkup_eq]
  · rw [hdepth.tagFree.toMarkup_eq]
    exact hdepth.openings_eq

/-- A directive that is plain code. -/
def plainCode (code : Text) : Directive :=
  ⟨['<', '%'], none, code, ['%', '>']⟩

/-- A loop in the second branch of a conditional. -/
def conditional : Program :=
  .block (plainCode " if a ".toList) (.text "x".toList .done)
    (.branch (plainCode " else ".toList)
      (.block (plainCode " list.each do |b| ".toList) (.leaf (plainCode " p b ".toList) .done)
        (.stop (plainCode " end ".toList)) .done)
      (.stop (plainCode " end ".toList)))
    (.text "y".toList .done)

/-- The loop is a template in the template of the branch. -/
theorem Program.toMarkup_eq_render_conditional :
    conditional.IsWellFormed ∧ toMarkup conditional.source =
      (Forest.template "if a".toList (.leaf "x".toList .nil)
        (.template "else".toList
          (.template "list.each do |b|".toList (.leaf "<!--SLIM_CODE:p b-->".toList .nil) .nil)
          (.leaf "y".toList .nil))).render := by
  have hone : ∀ code ∈ [" if a ", " else ", " list.each do |b| ", " p b ", " end "].map
      String.toList, (plainCode code).IsOneLine := by
    decide
  have h : conditional.IsWellFormed := by
    simp only [conditional, Program.IsWellFormed, Branches.IsWellFormed]
    exact ⟨hone _ (by decide), by decide, by decide, by decide⟩
  exact ⟨h, (conditional.toMarkup_eq_render h).1.trans (congrArg Forest.render (by decide))⟩

end SlimTemplate.Directive
