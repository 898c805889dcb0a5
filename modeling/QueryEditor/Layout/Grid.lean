import QueryEditor.Catalog
import QueryEditor.Layout.Reconcile
import QueryEditor.Markup.Element
import QueryEditor.Markup.Event

/-!
# Grid documents

A layout is kept as a grid document: a `grid` element with the object type code of the entity,
a `row` in it and a `cell` for each column.  `Grid.read` takes the cells of the first row,
`Layout.read` makes a layout of them, and `Layout.toXml` writes one.
-/

namespace QueryEditor

/-- What a layout lacks of its entity to be written. -/
inductive MissingSchema
  | entity
  | primaryId
  | primaryName
  deriving DecidableEq, Repr

/-- What to tell the user. -/
def MissingSchema.message : MissingSchema → String
  | entity => "no entity metadata"
  | primaryId => "no primary id attribute"
  | primaryName => "no primary name attribute"

/-- Why a layout cannot be read or written. -/
inductive LayoutError
  /-- Too little is known of the entity. -/
  | missingSchema (entity : String) (missing : MissingSchema)
  /-- The document is malformed. -/
  | malformed
  /-- The width of a cell is no number. -/
  | invalidWidth (name value : String)
  deriving DecidableEq, Repr

/-- What to tell the user. -/
def LayoutError.message : LayoutError → String
  | missingSchema entity missing =>
    s!"layout for '{entity}' cannot be written: {missing.message}"
  | malformed => "layout XML error: the document is malformed"
  | invalidWidth name value => s!"cell '{name}' has invalid width '{value}'"

/-- What a grid document says. -/
structure Grid where
  /-- The object type code of the entity. -/
  object : Option Int32
  cells : List Cell := []
  deriving DecidableEq

namespace Grid

open Markup (Event Tag)

/-- Adds a cell unless there is one of its name. -/
def addCell (g : Grid) (c : Cell) : Grid :=
  if g.cells.any (·.name == c.name) then g else { g with cells := g.cells ++ [c] }

/-- Reads a `grid` tag. -/
def ofTag (t : Tag) : Except LayoutError Grid :=
  match t.attributes?.bind fun as => Tag.valueIn? as "object" with
  | none => .error .malformed
  | some object => .ok { object := object.bind fun cs => Numeral.int32? (Text.trimmed cs) }

/-- The name and the width that a `cell` tag gives. -/
def cellTexts? (t : Tag) : Option (Option (List Char) × Option (List Char)) := do
  let attributes ← t.attributes?
  let name ← Tag.valueIn? attributes "name"
  let width ← Tag.valueIn? attributes "width"
  some (name, width)

/-- Reads a `cell` tag.  A cell without a width is hidden. -/
def cellOfTag (t : Tag) : Except LayoutError Cell :=
  match cellTexts? t with
  | none => .error .malformed
  | some (name, width) =>
    let name := String.ofList (name.getD [])
    match width with
    | none => .ok ⟨name, 0, none⟩
    | some width => match Numeral.uint32? (Text.trimmed width) with
      | some n => .ok ⟨name, n, none⟩
      | none => .error (.invalidWidth name (String.ofList width))

/-- How far the tags of a document were read. -/
structure Reader where
  grid : Option Grid := none
  /-- The number of open elements. -/
  depth : Nat := 0
  /-- Whether the first row is open. -/
  inRow : Bool := false
  /-- The number of rows so far. -/
  rows : Nat := 0
  deriving DecidableEq

namespace Reader

/-- Reads a `cell` tag into the grid. -/
def readCell (r : Reader) (t : Tag) : Except LayoutError Reader :=
  match r.grid with
  | none => .ok r
  | some g => (cellOfTag t).map fun c => { r with grid := some (g.addCell c) }

/-- Reads a tag that may have elements in it or not, at some depth: a grid at the top, a cell in
the first row. -/
def readTag (r : Reader) (depth : Nat) (t : Tag) : Except LayoutError Reader :=
  if depth = 1 ∧ t.name = "grid".toList then
    (ofTag t).map fun g => { r with grid := some g }
  else if depth = 3 ∧ t.name = "cell".toList ∧ r.inRow then r.readCell t
  else .ok r

/-- A start tag opens a row when it stands in a grid. -/
def openRow (r : Reader) (t : Tag) : Reader :=
  if r.depth = 2 ∧ t.name = "row".toList ∧ r.grid.isSome then
    { r with rows := r.rows + 1, inRow := r.rows = 0 }
  else r

/-- Reads a tag. -/
def step (r : Reader) : Event → Except LayoutError Reader
  | .opening t => (openRow { r with depth := r.depth + 1 } t).readTag (r.depth + 1) t
  | .empty t => r.readTag (r.depth + 1) t
  | .closing => .ok { r with inRow := r.inRow && r.depth != 2, depth := r.depth - 1 }
  | .malformed => .error .malformed

end Reader

/-- Reads a grid document.  A document without a grid at the top says nothing. -/
def read (text : String) : Except LayoutError (Option Grid) :=
  ((Markup.events text).foldlM Reader.step {}).map (·.grid)

end Grid

namespace Layout

open Markup (Element)

/-- Reads a layout and brings it in line with the columns of the query.  The object type code
of the document selects the entity; where it selects none the layout starts without cells, for
the root entity of the query. -/
def read (text : String) (catalog : Catalog) (root : String) (columns : List Column) :
    Except LayoutError Layout :=
  (if Text.blank text then .ok none else Grid.read text).map fun grid =>
    let persisted := grid.bind fun g => (g.object.bind catalog.entityOfCode?).map fun e =>
      ({ entityName := e.logicalName, entity := some e, cells := g.cells } : Layout)
    let fresh : Layout := { entityName := root, entity := catalog.entity? root }
    (persisted.getD fresh).reconcileColumns columns

/-- The element of a cell. -/
def cellElement (c : Cell) : Element :=
  .empty "cell" [("name", c.name), ("width", Numeral.ofUInt32 c.width)]

/-- The attributes of the `grid` element. -/
def gridAttributes (code : Option Int32) (primaryName : String) : List (String × String) :=
  [("name", "resultset")] ++ (code.map fun n => ("object", Numeral.ofInt32 n)).toList ++
    [("jump", primaryName), ("select", "1"), ("icon", "1"), ("preview", "1")]

/-- The grid document with the cells that are shown and bound. -/
def document (l : Layout) : Except LayoutError Element :=
  let missing (what : MissingSchema) : Except LayoutError Element :=
    .error (.missingSchema l.entityName what)
  match l.entity with
  | none => missing .entity
  | some e => match e.primaryIdAttribute, e.primaryNameAttribute with
    | none, _ => missing .primaryId
    | some _, none => missing .primaryName
    | some primaryId, some primaryName =>
      let cells := (l.visible.filter (·.isBound)).map cellElement
      .ok (.parent "grid" (gridAttributes e.objectTypeCode primaryName)
        [.parent "row" [("name", "result"), ("id", primaryId)] cells])

/-- Writes a layout. -/
def toXml (l : Layout) : Except LayoutError String := l.document.map Element.render

end Layout

end QueryEditor
