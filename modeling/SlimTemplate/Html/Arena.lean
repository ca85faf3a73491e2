import SlimTemplate.Html.Name
import SlimTemplate.Markup.Tree

/-!
# The tree under construction

While HTML is read, nodes move: formatting elements are split, misplaced content is lifted out of
tables. The tree under construction is therefore a store of cells that refer to each other by
their place in the store. The first cell is the document.

## Main definitions

* `Html.Arena`: the store, with `append`, `insertBefore`, `detach` and `moveChildren`.
* `Html.Arena.toNodes`: the finished tree below a cell.
-/

namespace SlimTemplate.Html

/-- The place of a cell in the store. -/
abbrev CellId := Nat

/-- What a cell stands for. -/
inductive Content where
  /-- The document, or the contents of a template. -/
  | root
  /-- An element; a template also has the cell of its contents. -/
  | element (name : Name) (attributes : List Markup.Attribute) (contents : Option CellId)
  /-- A piece of text, the last character first. -/
  | text (reversed : Text)
  | comment (data : Text)

/-- A cell of the store. -/
structure Cell where
  content : Content
  /-- The cell whose child it is. -/
  parent : Option CellId
  /-- Its children, the last one first. -/
  reversed : List CellId

/-- The store of cells. -/
structure Arena where
  /-- The cells in the order of their creation. -/
  cells : Array Cell

namespace Arena

/-- The store that holds the document alone. -/
def empty : Arena :=
  ⟨#[⟨.root, none, []⟩]⟩

/-- The place of the document. -/
def document : CellId :=
  0

/-- Adds a cell that has no parent. -/
def add (a : Arena) (content : Content) : CellId × Arena :=
  (a.cells.size, ⟨a.cells.push ⟨content, none, []⟩⟩)

/-- Changes one cell. -/
def modify (a : Arena) (id : CellId) (f : Cell → Cell) : Arena :=
  ⟨a.cells.modify id f⟩

/-- The cell whose child a cell is. -/
def parent? (a : Arena) (id : CellId) : Option CellId :=
  a.cells[id]?.bind (·.parent)

/-- The children of a cell, the last one first. -/
def reversedChildren (a : Arena) (id : CellId) : List CellId :=
  (a.cells[id]?.map (·.reversed)).getD []

/-- Whether a cell is a piece of text. -/
def isText (a : Arena) (id : CellId) : Bool :=
  match a.cells[id]? with
  | some ⟨.text _, _, _⟩ => true
  | _ => false

/-- The cell that holds what stands in an element: the contents of a template, otherwise the
element itself. -/
def holder (a : Arena) (id : CellId) : CellId :=
  match a.cells[id]? with
  | some ⟨.element _ _ (some contents), _, _⟩ => contents
  | _ => id

/-- Takes a cell out of its parent. -/
def detach (a : Arena) (id : CellId) : Arena :=
  match a.parent? id with
  | none => a
  | some p =>
    (a.modify p fun cell => { cell with reversed := cell.reversed.filter (· ≠ id) }).modify id
      fun cell => { cell with parent := none }

/-- Makes a cell the last child of another. -/
def append (a : Arena) (parent child : CellId) : Arena :=
  ((a.detach child).modify parent fun cell =>
      { cell with reversed := child :: cell.reversed }).modify child
    fun cell => { cell with parent := some parent }

/-- A list with `new` put after the first `mark`. -/
def insertAfter (mark new : CellId) : List CellId → List CellId
  | [] => [new]
  | id :: ids => if id = mark then id :: new :: ids else id :: insertAfter mark new ids

/-- Makes a cell the sibling directly before another. -/
def insertBefore (a : Arena) (sibling child : CellId) : Arena :=
  let a := a.detach child
  match a.parent? sibling with
  | none => a
  | some p =>
    (a.modify p fun cell => { cell with reversed := insertAfter sibling child cell.reversed
      }).modify child fun cell => { cell with parent := some p }

/-- Adds a character at the end of a piece of text. -/
def extendText (a : Arena) (id : CellId) (c : Char) : Arena :=
  a.modify id fun cell =>
    match cell.content with
    | .text reversed => { cell with content := .text (c :: reversed) }
    | _ => cell

/-- Adds a character at the end of a cell's children. -/
def appendChar (a : Arena) (parent : CellId) (c : Char) : Arena :=
  match a.reversedChildren parent with
  | last :: _ =>
    if a.isText last then a.extendText last c
    else let (id, a) := a.add (.text [c]); a.append parent id
  | [] => let (id, a) := a.add (.text [c]); a.append parent id

/-- The sibling directly before the cell `mark`, in a list of children with the last one first. -/
def previous? (mark : CellId) : List CellId → Option CellId
  | id :: before :: ids => if id = mark then some before else previous? mark (before :: ids)
  | _ => none

/-- Adds a character directly before a cell. -/
def insertCharBefore (a : Arena) (sibling : CellId) (c : Char) : Arena :=
  let fresh : Arena := let (id, a) := a.add (.text [c]); a.insertBefore sibling id
  match a.parent? sibling with
  | none => a
  | some p =>
    match previous? sibling (a.reversedChildren p) with
    | some before => if a.isText before then a.extendText before c else fresh
    | none => fresh

/-- Moves all children of a cell to the end of another's. -/
def moveChildren (a : Arena) (source target : CellId) : Arena :=
  (a.reversedChildren source).reverse.foldl (fun a child => a.append target child) a

/-- Gives an element those of the attributes whose keys it lacks. -/
def addMissing (a : Arena) (id : CellId) (more : List Markup.Attribute) : Arena :=
  a.modify id fun cell =>
    match cell.content with
    | .element name attributes contents =>
      let missing := more.filter fun (key, _) => (attributes.lookup key).isNone
      { cell with content := .element name (attributes ++ missing) contents }
    | _ => cell

/-- The attribute that marks a template as a block directive. -/
def markerKey : Text :=
  "data-slim-directive".toList

/-- The node of an element: a marked template is a block directive. -/
def elementNode (name : Name) (attributes : List Markup.Attribute) (children : List Markup.Node) :
    Markup.Node :=
  match if name.local = "template" then attributes.lookup markerKey else none with
  | some value => .ofMarker value children
  | none => .element name.local.toList attributes children

/-- The finished trees of the children of a cell, down to the given depth. The number of cells is
a depth that no tree exceeds. -/
def toNodes (a : Arena) : (depth : Nat) → CellId → List Markup.Node
  | 0, _ => []
  | depth + 1, id =>
    (a.reversedChildren id).reverse.filterMap fun child =>
      match a.cells[child]?.map Cell.content with
      | some (.element name attributes _) =>
        some (elementNode name attributes (a.toNodes depth (a.holder child)))
      | some (.text reversed) => some (.text reversed.reverse)
      | some (.comment data) => some (.comment data)
      | _ => none

end Arena

end SlimTemplate.Html
