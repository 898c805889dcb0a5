import QueryEditor.Json.Record
import QueryEditor.Text.Cut

/-!
# Columns of a query's result

A `Column` is an attribute that a query selects.  In the result it goes by its
`Column.resultName`: its alias or name, after the alias of the linked entity that owns it and a
point.
-/

namespace QueryEditor

/-- A selected attribute. -/
structure Column where
  name : String
  /-- The name it is given in the result instead of its own. -/
  ownAlias : Option String := none
  /-- The alias or name of the linked entity that owns the attribute. -/
  entityAlias : Option String := none
  deriving DecidableEq

namespace Column

/-- The name in the result. -/
def resultName (c : Column) : String :=
  let own := c.ownAlias.getD c.name
  match c.entityAlias with
  | some entity => entity ++ "." ++ own
  | none => own

/-- The column that a result name without aliases stands for: what comes before the first point
is the linked entity. -/
def ofResultName (text : String) : Column :=
  match Text.cut '.' text.toList with
  | some (entity, name) =>
    { name := String.ofList name, entityAlias := some (String.ofList entity) }
  | none => { name := text }

/-- The declared fields. -/
def fieldNames : List String := ["name", "alias", "entity_alias"]

/-- Reads a column. -/
def ofJson? (j : Json) : Option Column := do
  let r ← j.record? fieldNames
  let name ← r.required? "name" Json.text?
  let ownAlias ← r.optional? "alias" Json.text?
  let entityAlias ← r.optional? "entity_alias" Json.text?
  some { name, ownAlias, entityAlias }

/-- Writes a column. -/
def toJson (c : Column) : Json :=
  .object
    [ .optional "alias" .text c.ownAlias,
      .optional "entity_alias" .text c.entityAlias,
      .always "name" (.text c.name) ]

end Column

end QueryEditor
