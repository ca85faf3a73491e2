import SlimTemplate.Proofs.Repair.Step
import SlimTemplate.Proofs.Line.Parts

/-!
# What becomes of each line

The repair of text over several lines treats a line by what stands around it: a line is folded into
the outermost element above it that it is text of, an element with text lines below it is opened,
and all other lines are kept. A line that begins with a tag name and a mark or attributes behind it
ends the text of an element if the tag name is made of letters. Where the tag name has another
character, as in `h1`, the line is taken for text.

## Main definitions

* `Repair.Place`: a line and the lines around it.
* `Repair.Treatment`: what becomes of a line.
* `Repair.IsReached`: the text below an element goes on up to a line.
* `Repair.IsMarkedTag`: a tag name with a mark or attributes directly behind it.

## Main statements

* `Repair.pipeMultiline_fst_eq`: the repair treats each line by what stands around it.
* `Repair.isMarkup_iff_of_isMarkedTag`: when such a line counts as markup.
* `repair_folds_markedTag_iff`: when such a line is folded.
-/

namespace SlimTemplate

namespace Repair

variable {layout : Layout} {options : RepairOptions} {line : NumberedLine}
  {lines before after : List NumberedLine}

/-! ## Places and treatments -/

/-- A line and the lines around it. -/
structure Place where
  before : List NumberedLine
  line : NumberedLine
  after : List NumberedLine
  deriving DecidableEq

/-- The places of lines, one for each line. -/
def places : List NumberedLine → List Place
  | [] => []
  | line :: lines =>
    ⟨[], line, lines⟩ ::
      (places lines).map fun place => { place with before := line :: place.before }

/-- What becomes of a line. -/
inductive Treatment where
  | kept
  /-- The line is left with its head alone, and its text goes behind a bar. -/
  | opened (head text : Text)
  /-- The line goes behind a bar as text of an element above it. -/
  | folded (element : NumberedLine)
  deriving DecidableEq, Repr

/-- The lines that are written for a line. -/
def Treatment.written (layout : Layout) (line : NumberedLine) : Treatment → List NumberedLine
  | kept => [line]
  | opened head text =>
    [⟨line.number, line.margin ++ head⟩,
      pipeLine line.number (line.margin ++ layout.indent 1) text]
  | folded element => [pipeLine line.number (element.margin ++ layout.indent 1) line.content]

/-- The outermost element above a line such that the line, and all between the two, is text below
it. -/
def owner? (line : NumberedLine) : List NumberedLine → Option NumberedLine
  | [] => none
  | element :: between =>
    if (headAndText? element.content).isSome &&
        (between ++ [line]).all (isTextBelow element.margin.length) then
      some element
    else owner? line between

/-- What the repair of text over several lines makes of a line at its place. -/
def Place.treatment (place : Place) : Treatment :=
  match owner? place.line place.before with
  | some element => .folded element
  | none =>
    match headAndText? place.line.content with
    | some (head, text) =>
      if place.after.head?.any (isTextBelow place.line.margin.length) then .opened head text
      else .kept
    | none => .kept

/-- The lines that the repair of text over several lines writes at a place. -/
def Place.written (layout : Layout) (place : Place) : List NumberedLine :=
  place.treatment.written layout place.line

theorem mem_places_iff {place : Place} :
    place ∈ places lines ↔ lines = place.before ++ place.line :: place.after := by
  induction lines generalizing place with
  | nil => simp [places]
  | cons first lines ih =>
    rw [places, List.mem_cons, List.mem_map]
    constructor
    · rintro (rfl | ⟨inner, hinner, rfl⟩)
      · rfl
      · exact congrArg (first :: ·) (ih.1 hinner)
    · intro heq
      obtain ⟨_ | ⟨other, rest⟩, line, after⟩ := place
      · obtain ⟨rfl, rfl⟩ := List.cons.inj heq
        exact .inl rfl
      · obtain ⟨rfl, hrest⟩ := List.cons.inj heq
        exact .inr ⟨⟨rest, line, after⟩, ih.2 hrest, rfl⟩

theorem places_append (a b : List NumberedLine) :
    places (a ++ b) =
      ((places a).map fun place => { place with after := place.after ++ b }) ++
        (places b).map fun place => { place with before := a ++ place.before } := by
  induction a with
  | nil => simp [places]
  | cons line a ih => simp [places, ih, Function.comp_def]

theorem map_line_places (lines : List NumberedLine) : (places lines).map Place.line = lines := by
  induction lines with
  | nil => rfl
  | cons line lines ih =>
    rw [places, List.map_cons, List.map_map]
    exact congrArg (line :: ·) ih

/-- The first of the lines up to a place is the first of all lines. -/
theorem exists_first_of_mem_places {place : Place} (h : place ∈ places lines) :
    ∃ first ∈ lines.head?, first ∈ place.before ++ [place.line] := by
  rw [mem_places_iff.1 h]
  obtain ⟨_ | ⟨first, rest⟩, line, after⟩ := place
  · exact ⟨line, rfl, List.mem_singleton_self line⟩
  · exact ⟨first, rfl, List.mem_cons_self⟩

/-! ## The repair place by place -/

/-- No line belongs to an element that is none, or whose text ends before the line. -/
theorem owner?_append {between : List NumberedLine} (h : ∀ element ∈ before,
      headAndText? element.content = none ∨
        ∃ l ∈ between ++ [line], isTextBelow element.margin.length l = false) :
    owner? line (before ++ between) = owner? line between := by
  induction before with
  | nil => rfl
  | cons element before ih =>
    obtain ⟨helement, hbefore⟩ := List.forall_mem_cons.1 h
    rw [List.cons_append, owner?, if_neg, ih hbefore]
    rw [Bool.and_eq_true, List.all_eq_true]
    rintro ⟨hsome, hall⟩
    rcases helement with hnone | ⟨l, hl, hbelow⟩
    · rw [hnone] at hsome
      cases hsome
    · have htext := hall l (by simpa using .inr (by simpa using hl))
      rw [hbelow] at htext
      cases htext

/-- What stands before lines does not matter to them if their first line is not text of it. -/
theorem flatMap_written_behind (layout : Layout)
    (h : ∀ element ∈ before, headAndText? element.content = none ∨
      ∀ first ∈ lines.head?, isTextBelow element.margin.length first = false) :
    ((places lines).flatMap fun place =>
        Place.written layout { place with before := before ++ place.before }) =
      (places lines).flatMap (Place.written layout) := by
  refine List.flatMap_congr fun place hplace => ?_
  have howner : owner? place.line (before ++ place.before) = owner? place.line place.before := by
    obtain ⟨first, hfirst, hmem⟩ := exists_first_of_mem_places hplace
    exact owner?_append fun element helement =>
      (h element helement).imp_right fun hbelow => ⟨first, hmem, hbelow first hfirst⟩
  simp only [Place.written, Place.treatment, howner]

theorem flatMap_written_cons (layout : Layout) (line : NumberedLine) (lines : List NumberedLine) :
    (places (line :: lines)).flatMap (Place.written layout) =
      Place.written layout ⟨[], line, lines⟩ ++
        (places lines).flatMap fun place =>
          Place.written layout { place with before := [line] ++ place.before } := by
  rw [places, List.flatMap_cons, List.flatMap_map]
  rfl

/-- A line without text below it, as the first of lines. -/
theorem written_of_kept (h : headAndText? line.content = none ∨
      ∀ first ∈ lines.head?, isTextBelow line.margin.length first = false) :
    Place.written layout ⟨[], line, lines⟩ = [line] := by
  cases hhead : headAndText? line.content with
  | none => simp [Place.written, Place.treatment, owner?, hhead, Treatment.written]
  | some behind =>
    have hstop := h.resolve_left (by simp [hhead])
    have hbelow : lines.head?.any (isTextBelow line.margin.length) = false := by
      cases lines with
      | nil => rfl
      | cons first lines => exact hstop first rfl
    simp [Place.written, Place.treatment, owner?, hhead, hbelow, Treatment.written]

/-- The lines of text below an element go behind bars. -/
theorem flatMap_written_below (layout : Layout) {below : List NumberedLine}
    (hsome : (headAndText? line.content).isSome = true)
    (hbelow : ∀ l ∈ below, isTextBelow line.margin.length l = true) (after : List NumberedLine) :
    ((places below).flatMap fun place =>
        Place.written layout ⟨line :: place.before, place.line, place.after ++ after⟩) =
      below.map fun l => pipeLine l.number (line.margin ++ layout.indent 1) l.content := by
  have hwritten : ∀ place ∈ places below,
      Place.written layout ⟨line :: place.before, place.line, place.after ++ after⟩ =
        [pipeLine place.line.number (line.margin ++ layout.indent 1) place.line.content] := by
    intro place hplace
    have hbetween : ∀ l ∈ place.before ++ [place.line],
        isTextBelow line.margin.length l = true := by
      intro l hl
      refine hbelow l ?_
      rw [mem_places_iff.1 hplace, List.append_cons]
      exact List.mem_append_left _ hl
    have howner : owner? place.line (line :: place.before) = some line := by
      rw [owner?, hsome, List.all_eq_true.2 hbetween]
      rfl
    simp only [Place.written, Place.treatment, howner, Treatment.written]
  rw [List.flatMap_congr hwritten, ← List.map_eq_flatMap]
  conv_rhs => rw [← map_line_places below, List.map_map]
  rfl

/-- The line that ends the text below an element is no text below a line of that text either. -/
theorem isTextBelow_behind (line : NumberedLine) (lines : List NumberedLine) :
    ∀ element ∈ line :: lines.takeWhile (isTextBelow line.margin.length),
      ∀ first ∈ (lines.dropWhile (isTextBelow line.margin.length)).head?,
        isTextBelow element.margin.length first = false := by
  intro element helement first hfirst
  have hstop : isTextBelow line.margin.length first = false :=
    Text.eq_false_of_mem_head?_dropWhile hfirst
  have hle : line.margin.length ≤ element.margin.length := by
    rcases List.mem_cons.1 helement with rfl | hbelow
    · exact le_rfl
    · have htext := List.mem_takeWhile_imp hbelow
      rw [isTextBelow, Bool.and_eq_true, decide_eq_true_iff] at htext
      exact htext.1.le
  exact isTextBelow_of_le hstop hle

/-- An element with text below it is opened. -/
theorem written_of_opened {head text : Text} (h : headAndText? line.content = some (head, text))
    (hne : lines.takeWhile (isTextBelow line.margin.length) ≠ []) :
    Place.written layout ⟨[], line, lines⟩ = [⟨line.number, line.margin ++ head⟩,
      pipeLine line.number (line.margin ++ layout.indent 1) text] := by
  have hbelow : lines.head?.any (isTextBelow line.margin.length) = true := by
    cases lines with
    | nil => exact absurd rfl hne
    | cons first lines =>
      by_contra hfirst
      exact hne (List.takeWhile_cons_of_neg hfirst)
  simp [Place.written, Place.treatment, owner?, h, hbelow, Treatment.written]

/-- The repair of text over several lines treats each line by what stands around it. -/
theorem pipeMultiline_fst_eq (layout : Layout) (lines : List NumberedLine) :
    (pipeMultiline layout lines).1 = (places lines).flatMap (Place.written layout) := by
  fun_induction pipeMultiline layout lines with
  | case1 => rfl
  | case2 line lines hnone rest fixes hrest ih =>
    rw [hrest] at ih
    rw [flatMap_written_cons, written_of_kept (.inl hnone),
      flatMap_written_behind layout (by simpa using .inl hnone), ← ih]
    rfl
  | case3 line lines head text hsome below hbelow rest fixes hrest ih =>
    rw [hrest] at ih
    have hfirst : ∀ first ∈ lines.head?, isTextBelow line.margin.length first = false := by
      cases lines with
      | nil => simp
      | cons second lines => simpa [below, List.takeWhile_cons] using hbelow
    rw [flatMap_written_cons, written_of_kept (.inr hfirst),
      flatMap_written_behind layout (by simpa using .inr hfirst), ← ih]
    rfl
  | case4 line lines head text hsome below hbelow indent rest fixes hrest ih =>
    rw [hrest] at ih
    have hsplit : below ++ lines.dropWhile (isTextBelow line.margin.length) = lines :=
      List.takeWhile_append_dropWhile
    have hall : ∀ l ∈ below, isTextBelow line.margin.length l = true :=
      fun l hl => List.mem_takeWhile_imp hl
    have hfolded := flatMap_written_below layout (by rw [hsome]; rfl) hall
      (lines.dropWhile (isTextBelow line.margin.length))
    have hbehind := flatMap_written_behind layout
      (fun element helement => .inr (isTextBelow_behind line lines element helement))
    rw [flatMap_written_cons, written_of_opened hsome (mt List.isEmpty_iff.2 hbelow)]
    conv_rhs => rw [← hsplit]
    rw [places_append, List.flatMap_append, List.flatMap_map, List.flatMap_map]
    rw [← ih] at hbehind
    exact congrArg ([_, _] ++ ·) (congrArg₂ (· ++ ·) hfolded.symm hbehind.symm)

/-! ## Lines that the text below an element goes on to -/

/-- The text below an element goes on up to a line, which is deeper than the element as well. -/
def IsReached (before : List NumberedLine) (line : NumberedLine) : Prop :=
  ∃ start element between, before = start ++ element :: between ∧
    (headAndText? element.content).isSome = true ∧
    (∀ l ∈ between, isTextBelow element.margin.length l = true) ∧
    element.margin.length < line.margin.length

theorem isReached_cons {element : NumberedLine} : IsReached (element :: before) line ↔
    ((headAndText? element.content).isSome = true ∧
      (∀ l ∈ before, isTextBelow element.margin.length l = true) ∧
      element.margin.length < line.margin.length) ∨ IsReached before line := by
  constructor
  · rintro ⟨_ | ⟨first, start⟩, other, between, heq, hreached⟩
    · obtain ⟨rfl, rfl⟩ := List.cons.inj heq
      exact .inl hreached
    · exact .inr ⟨start, other, between, (List.cons.inj heq).2, hreached⟩
  · rintro (hreached | ⟨start, other, between, rfl, hreached⟩)
    · exact ⟨[], element, before, rfl, hreached⟩
    · exact ⟨element :: start, other, between, rfl, hreached⟩

/-- A line is text of an element if the text of one goes on up to it and it is no markup. -/
theorem isSome_owner?_iff : (owner? line before).isSome = true ↔
    IsReached before line ∧ isMarkup line.content = false := by
  induction before with
  | nil => simp [owner?, IsReached]
  | cons element before ih =>
    have hall : (before ++ [line]).all (isTextBelow element.margin.length) = true ↔
        ((∀ l ∈ before, isTextBelow element.margin.length l = true) ∧
          element.margin.length < line.margin.length) ∧ isMarkup line.content = false := by
      rw [List.all_eq_true, List.forall_mem_append, List.forall_mem_singleton, isTextBelow]
      simp [and_assoc]
    rw [owner?, isReached_cons]
    split
    · next howner =>
      rw [Bool.and_eq_true, hall] at howner
      exact iff_of_true rfl ⟨.inl ⟨howner.1, howner.2.1⟩, howner.2.2⟩
    · next howner =>
      rw [Bool.and_eq_true, hall] at howner
      rw [ih]
      constructor
      · exact And.imp_left .inr
      · rintro ⟨⟨hsome, hbelow⟩ | hreached, hmarkup⟩
        · exact absurd ⟨hsome, hbelow, hmarkup⟩ howner
        · exact ⟨hreached, hmarkup⟩

/-! ## Tag names with a mark or attributes behind them -/

/-- A line that begins with a tag name and, directly behind it, a mark or attributes. -/
structure IsMarkedTag (name content : Text) : Prop where
  element : ∃ head, Head.scan? content = some head ∧ head.element = some name
  marked : ∃ c rest, content = name ++ c :: rest ∧ (c = '#' ∨ c = '.' ∨ c = '[')

theorem isLatinLetter_eq_isAlpha {c : Char} (h : Head.isTagChar c = true) :
    isLatinLetter c = c.isAlpha :=
  Text.forall_isAscii (P := fun d => isLatinLetter d = d.isAlpha) (by decide)
    (Head.isAscii_of_isTagChar h)

/-- No tag name begins with the sign of another kind of line. -/
theorem startsWithSign_of_isAlpha {c : Char} (h : c.isAlpha = true) (rest : Text) :
    startsWithSign (c :: rest) = false :=
  Text.forall_isAscii
    (P := fun d => d.isAlpha = true → ['=', '-', '|', '/', '!', '#', '.'].contains d = false)
    (by decide) (Text.isAscii_of_isAlphanum (by rw [Char.isAlphanum, h]; rfl)) h

/-- Letters are read up to the first other character, which is a sign only behind the tag name. -/
theorem startsMarkedTag_append {name rest : Text} {sign : Char} (hname : name ≠ [])
    (htag : ∀ c ∈ name, Head.isTagChar c = true) (hfirst : ∀ c ∈ name.head?, c.isAlpha = true)
    (hsign : sign = '#' ∨ sign = '.' ∨ sign = '[') :
    startsMarkedTag (name ++ sign :: rest) = true ↔ ∀ c ∈ name, c.isAlpha = true := by
  have hletter : ∀ c ∈ name, isLatinLetter c = c.isAlpha :=
    fun c hc => isLatinLetter_eq_isAlpha (htag c hc)
  have hbegins : ((name ++ sign :: rest).head?.map isLatinLetter).getD false = true := by
    obtain ⟨c, more, rfl⟩ := List.exists_cons_of_ne_nil hname
    exact (hletter c List.mem_cons_self).trans (hfirst c rfl)
  have hend : isLatinLetter sign = false := by
    rcases hsign with rfl | rfl | rfl <;> decide
  rw [startsMarkedTag, hbegins, Bool.true_and]
  by_cases hall : ∀ c ∈ name, c.isAlpha = true
  · rw [List.dropWhile_append_of_pos fun c hc => (hletter c hc).trans (hall c hc),
      List.dropWhile_cons_of_neg (by simp [hend])]
    exact iff_of_true (by simpa [or_assoc] using hsign) hall
  · have hne : name.dropWhile isLatinLetter ≠ [] := fun hnil =>
      hall fun c hc => (hletter c hc).symm.trans (List.dropWhile_eq_nil_iff.1 hnil c hc)
    obtain ⟨e, more, hdrop⟩ := List.exists_cons_of_ne_nil hne
    obtain ⟨before, rfl, hbefore, he⟩ := Text.eq_append_of_dropWhile hdrop
    have htagged : Head.isTagChar e = true :=
      htag e (List.mem_append_right before List.mem_cons_self)
    rw [List.append_assoc, List.dropWhile_append_of_pos hbefore, List.cons_append,
      List.dropWhile_cons_of_neg (by simp [he])]
    refine iff_of_false ?_ hall
    rw [Bool.or_eq_true, Bool.or_eq_true, decide_eq_true_iff, decide_eq_true_iff,
      decide_eq_true_iff]
    rintro ((rfl | rfl) | rfl) <;> exact absurd htagged (by decide)

/-- Such a line counts as markup exactly if the tag name is made of letters. -/
theorem isMarkup_iff_of_isMarkedTag {name content : Text} (h : IsMarkedTag name content) :
    isMarkup content = true ↔ ∀ c ∈ name, c.isAlpha = true := by
  obtain ⟨⟨head, hscan, helement⟩, sign, rest, rfl, hsign⟩ := h
  obtain ⟨d, more, rfl, hd, hmore⟩ := Head.element_eq_cons hscan name helement
  have htag : ∀ c ∈ d :: more, Head.isTagChar c = true := by
    have hmem := Head.isTagChar_of_mem_element hscan
    rwa [helement, Option.getD_some] at hmem
  rw [isMarkup, List.cons_append, startsWithSign_of_isAlpha hd, ← List.cons_append]
  exact startsMarkedTag_append (List.cons_ne_nil d more) htag (by simpa using hd) hsign

/-! ## The repair of a source -/

/-- What a repair makes of a line at its place, once slashes are repaired. -/
def Place.chosen (options : RepairOptions) (place : Place) : Treatment :=
  if options.multiline then place.treatment else .kept

theorem repair_content_eq (options : RepairOptions) (source : Text) :
    (repair options source).content =
      unlines ((places (unslashed options (numberFrom 1 (Text.lines source)))).flatMap
        fun place => (place.chosen options).written options.layout place.line) := by
  rw [repair_eq, settle_eq]
  cases hmultiline : options.multiline with
  | true =>
    simp only [Place.chosen, hmultiline, if_true]
    rw [pipeMultiline_fst_eq]
    rfl
  | false =>
    simp only [Place.chosen, hmultiline, Bool.false_eq_true, if_false, Treatment.written]
    rw [← List.map_eq_flatMap, map_line_places]

/-- A line is folded if the text below an element goes on up to it and it is no markup. -/
theorem Place.exists_folded_iff {place : Place} :
    (∃ element, place.chosen options = .folded element) ↔
      options.multiline = true ∧ IsReached place.before place.line ∧
        isMarkup place.line.content = false := by
  rw [Place.chosen, ← isSome_owner?_iff, Place.treatment]
  cases options.multiline with
  | false => simp
  | true =>
    cases howner : owner? place.line place.before with
    | some element => simp
    | none =>
      cases headAndText? place.line.content with
      | none => simp
      | some behind =>
        cases place.after.head?.any (isTextBelow place.line.margin.length) <;> simp

end Repair

open Repair

/-- In a repair, each line is written by what becomes of it at its place, once slashes are repaired.
A line that begins with a tag name and, directly behind it, a mark or attributes is folded into an
element above it if and only if text over several lines is repaired, the text below some element
goes on up to the line, and the tag name has a character that is no letter. So text ends at such a
line exactly if the tag name is made of letters. -/
theorem repair_folds_markedTag_iff (options : RepairOptions) (source : Text) :
    (repair options source).content =
        unlines ((places (unslashed options (numberFrom 1 (Text.lines source)))).flatMap
          fun place => (place.chosen options).written options.layout place.line) ∧
      ∀ place ∈ places (unslashed options (numberFrom 1 (Text.lines source))),
        ∀ name, IsMarkedTag name place.line.content →
          ((∃ element, place.chosen options = .folded element) ↔
            options.multiline = true ∧ IsReached place.before place.line ∧
              ∃ c ∈ name, c.isAlpha = false) := by
  refine ⟨repair_content_eq options source, fun place _ name h => ?_⟩
  rw [Place.exists_folded_iff, ← Bool.not_eq_true, isMarkup_iff_of_isMarkedTag h]
  simp

/-- A paragraph with a heading and a link below it, which have a class each. -/
def introPage : Text :=
  "p Intro\n  h1.title Big\n  a.card Go\n".toList

/-- The place of the heading. -/
def headingPlace : Place :=
  ⟨[⟨1, "p Intro".toList⟩], ⟨2, "  h1.title Big".toList⟩, [⟨3, "  a.card Go".toList⟩]⟩

/-- The place of the link. -/
def linkPlace : Place :=
  ⟨[⟨1, "p Intro".toList⟩, ⟨2, "  h1.title Big".toList⟩], ⟨3, "  a.card Go".toList⟩, []⟩

theorem mem_places_introPage : ∀ place ∈ [headingPlace, linkPlace],
    place ∈ places (unslashed .standard (numberFrom 1 (Text.lines introPage))) := by
  decide +kernel

theorem isMarkedTag_heading : IsMarkedTag "h1".toList headingPlace.line.content :=
  ⟨⟨⟨some "h1".toList, [⟨'.', "title".toList⟩], none, " Big".toList⟩, by decide +kernel, rfl⟩,
    '.', "title Big".toList, by decide, .inr (.inl rfl)⟩

/-- The text below the paragraph goes on up to the heading, which is folded, and to the link, which
is not. -/
theorem repair_folds_markedTag_introPage :
    (∃ element, headingPlace.chosen .standard = .folded element) ∧
      ¬∃ element, linkPlace.chosen .standard = .folded element := by
  have hfolds := (repair_folds_markedTag_iff .standard introPage).2
  have hlink : IsMarkedTag "a".toList linkPlace.line.content :=
    ⟨⟨⟨some "a".toList, [⟨'.', "card".toList⟩], none, " Go".toList⟩, by decide +kernel, rfl⟩,
      '.', "card Go".toList, by decide, .inr (.inl rfl)⟩
  have hreached : IsReached headingPlace.before headingPlace.line :=
    ⟨[], ⟨1, "p Intro".toList⟩, [], rfl, by decide +kernel, by simp, by decide⟩
  refine ⟨(hfolds headingPlace (mem_places_introPage _ (by simp)) _ isMarkedTag_heading).2
    ⟨rfl, hreached, '1', by decide, by decide⟩, fun hfolded => ?_⟩
  obtain ⟨-, -, c, hc, hother⟩ :=
    (hfolds linkPlace (mem_places_introPage _ (by simp)) _ hlink).1 hfolded
  rw [List.mem_singleton.1 hc] at hother
  exact absurd hother (by decide)

/-- The heading is a tag name with a class behind it, and goes behind a bar all the same. -/
theorem repair_folds_heading :
    headingPlace ∈ places (unslashed .standard (numberFrom 1 (Text.lines introPage))) ∧
      IsMarkedTag "h1".toList headingPlace.line.content ∧
      (∃ element, headingPlace.chosen .standard = .folded element) ∧
      (repair .standard introPage).content =
        "p\n  | Intro\n  | h1.title Big\n  a.card Go\n".toList :=
  ⟨mem_places_introPage _ (by simp), isMarkedTag_heading,
    ⟨⟨1, "p Intro".toList⟩, by decide +kernel⟩, by decide +kernel⟩

end SlimTemplate
