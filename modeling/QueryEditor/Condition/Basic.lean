import QueryEditor.Json.Record

/-!
# Conditions

A `Condition` compares an attribute with a value or with another column.
-/

namespace QueryEditor

/-- What the user fills in for one condition. -/
structure Condition where
  /-- The attribute, by logical or display name. -/
  attributeName : String
  /-- The operator, by its symbol. -/
  operator : String
  value : String := ""
  /-- The column to compare with instead of a value. -/
  valueOf : String := ""
  /-- The linked entity the condition is about, by alias or name. -/
  entityName : Option String := none
  deriving DecidableEq

namespace Condition

/-- The declared fields. -/
def fieldNames : List String := ["attribute", "operator", "value", "value_of", "entity_name"]

/-- Reads a condition. -/
def ofJson? (j : Json) : Option Condition := do
  let r ← j.record? fieldNames
  let attributeName ← r.required? "attribute" Json.text?
  let operator ← r.required? "operator" Json.text?
  let value ← r.default? "value" "" Json.text?
  let valueOf ← r.default? "value_of" "" Json.text?
  let entityName ← r.optional? "entity_name" Json.text?
  some { attributeName, operator, value, valueOf, entityName }

/-- Writes a condition. -/
def toJson (c : Condition) : Json :=
  .object
    [ .always "attribute" (.text c.attributeName),
      .optional "entity_name" .text c.entityName,
      .always "operator" (.text c.operator),
      .always "value" (.text c.value),
      .always "value_of" (.text c.valueOf) ]

end Condition

end QueryEditor
