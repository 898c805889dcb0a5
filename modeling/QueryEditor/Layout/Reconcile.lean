import QueryEditor.Layout.Basic

/-!
# Bringing a layout up to date

`Layout.reconcileColumns` brings the cells in line with the columns of the query, and
`Layout.reconcileWidths` with widths that the user has chosen.
-/

namespace QueryEditor

namespace Cell

/-- Finds the cell of a column: the one bound to it, or else the first one with its result name,
which is bound to it then.  Answers the position of the cell and all cells. -/
def claim? (cells : List Cell) (c : Column) : Option (Nat × List Cell) :=
  match cells.findIdx? (·.column == some c) with
  | some i => some (i, cells)
  | none => (cells.findIdx? (·.name == c.resultName)).map fun i =>
    (i, cells.modify i fun cell => { cell with column := some c })

/-- Unbinds the cells of columns that are not in the list. -/
def unbindStale (columns : List Column) (cells : List Cell) : List Cell :=
  cells.map fun cell =>
    if cell.column.any (!columns.contains ·) then { cell with column := none } else cell

/-- Finds or adds a cell for a column. -/
def ensure (cells : List Cell) (c : Column) : List Cell :=
  match claim? cells c with
  | some (_, cells) => cells
  | none => cells ++ [hidden c]

/-- The first column of the list that goes by this name and that no cell shows. -/
def freeColumn? (columns : List Column) (cells : List Cell) (name : String) : Option Column :=
  columns.find? fun c => c.resultName == name && !cells.any (·.column == some c)

/-- Binds each unbound cell in turn to a free column of its name, if there is one; `before` are
the cells that were looked at. -/
def bindFree (columns : List Column) (before : List Cell) : List Cell → List Cell
  | [] => before
  | cell :: cells =>
    if cell.isBound then bindFree columns (before ++ [cell]) cells
    else
      let free := freeColumn? columns (before ++ cell :: cells) cell.name
      bindFree columns (before ++ [{ cell with column := free }]) cells

/-- Brings cells in line with the columns of the query. -/
def reconcileColumns (columns : List Column) (cells : List Cell) : List Cell :=
  (bindFree columns [] (columns.foldl ensure (unbindStale columns cells))).filter (·.isBound)

/-! ### Widths -/

/-- The first entry of each name. -/
def firstWidths (widths : List (String × UInt32)) : List (String × UInt32) :=
  widths.foldl (fun kept entry => if kept.any (·.1 == entry.1) then kept else kept ++ [entry]) []

/-- The width that a list of entries gives a name. -/
def widthIn (widths : List (String × UInt32)) (name : String) : UInt32 :=
  ((widths.find? (·.1 == name)).map (·.2)).getD 0

/-- Adds a cell for a name that has none. -/
def addNamed (columns : List Column) (cells : List Cell) (entry : String × UInt32) : List Cell :=
  if cells.any (·.name == entry.1) then cells
  else cells ++ [⟨entry.1, entry.2, columns.find? (·.resultName == entry.1)⟩]

/-- Moves the first cell of each name in turn to the end of `front`; the rest follow. -/
def moveToFront (front : List Cell) : List String → List Cell → List Cell
  | [], rest => front ++ rest
  | name :: names, rest => match rest.find? (·.name == name) with
    | some cell => moveToFront (front ++ [cell]) names (rest.eraseP (·.name == name))
    | none => moveToFront front names rest

/-- Gives cells the widths of a list, hides those that are not in it and puts those that are in
its order. -/
def reconcileWidths (widths : List (String × UInt32)) (columns : List Column)
    (cells : List Cell) : List Cell :=
  let widths := firstWidths widths
  let cells := (widths.foldl (addNamed columns) cells).map fun cell =>
    { cell with width := widthIn widths cell.name }
  moveToFront [] (widths.map (·.1)) cells

end Cell

namespace Layout

/-- Finds the cell of a column and binds it if it was found by its name. -/
def cellFor (l : Layout) (c : Column) : Option Cell × Layout :=
  match Cell.claim? l.cells c with
  | some (i, cells) => (cells[i]?, { l with cells })
  | none => (none, l)

/-- Brings the cells in line with the columns of the query: columns without a cell get a hidden
one at the end, unbound cells take a free column of their name, and cells that stay unbound are
dropped. -/
def reconcileColumns (l : Layout) (columns : List Column) : Layout :=
  { l with cells := Cell.reconcileColumns columns l.cells }

/-- Gives the cells the chosen widths and their order.  A name without a cell gets one, cells
without a width are hidden, and of two widths for a name the first one counts. -/
def reconcileWidths (l : Layout) (widths : List (String × UInt32)) (columns : List Column) :
    Layout :=
  { l with cells := Cell.reconcileWidths widths columns l.cells }

end Layout

end QueryEditor
