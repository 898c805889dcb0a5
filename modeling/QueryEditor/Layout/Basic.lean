import QueryEditor.Query.Column
import QueryEditor.Schema.Basic

/-!
# The layout of a result

A `Layout` is the list of columns in which the result of a query is shown.  Each `Cell` has a
name and a width, and is bound to the column it shows.
-/

namespace QueryEditor

/-- A column of the shown result. -/
structure Cell where
  /-- The result name of what it shows. -/
  name : String
  /-- Zero hides the cell. -/
  width : UInt32
  column : Option Column := none
  deriving DecidableEq

namespace Cell

/-- A hidden cell for a column. -/
def hidden (c : Column) : Cell := ⟨c.resultName, 0, some c⟩

/-- Whether it is shown. -/
def isVisible (c : Cell) : Bool := 0 < c.width

/-- Whether it shows a column. -/
def isBound (c : Cell) : Bool := c.column.isSome

/-- Writes a cell. -/
def toJson (c : Cell) : Json :=
  .object
    [ .optional "attribute" Column.toJson c.column,
      .always "name" (.text c.name),
      .always "width" (.ofUInt32 c.width) ]

end Cell

/-- The cells for the records of an entity. -/
structure Layout where
  entityName : String
  /-- What is known of the entity. -/
  entity : Option Entity
  cells : List Cell := []
  deriving DecidableEq

namespace Layout

/-- The cell with this name. -/
def cell? (l : Layout) (name : String) : Option Cell := l.cells.find? (·.name == name)

/-- The cells that are shown. -/
def visible (l : Layout) : List Cell := l.cells.filter (·.isVisible)

/-- Counts the cells for the user. -/
def summary (l : Layout) : String :=
  s!"{l.entityName} {l.visible.length}/{l.cells.length} cells"

/-- Writes a layout. -/
def toJson (l : Layout) : Json :=
  .object
    [ .always "cells" (.arr (l.cells.map Cell.toJson)),
      .always "entity_name" (.text l.entityName) ]

end Layout

end QueryEditor
