import QueryEditor.Json.Record
import QueryEditor.Schema.Basic

/-!
# Metadata in JSON

How types, option entries, attributes and entities are read from JSON and written to it.  What
a record leaves out has a default, and members without a value are not written.
-/

namespace QueryEditor

namespace AttributeType

/-- Reads a tag, or an object that gives the tag no content. -/
def ofJson? : Json → Option AttributeType
  | .str s => s.bind ofTag?
  | .obj [(some name, .null)] => ofTag? name
  | _ => none

/-- Writes the tag. -/
def toJson (t : AttributeType) : Json := .text t.tag

end AttributeType

namespace OptionItem

/-- The declared fields. -/
def fieldNames : List String := ["value", "label"]

/-- Reads an entry. -/
def ofJson? (j : Json) : Option OptionItem := do
  let r ← j.record? fieldNames
  let value ← r.required? "value" Json.int32?
  let label ← r.required? "label" Json.text?
  some ⟨value, label⟩

/-- Writes an entry. -/
def toJson (o : OptionItem) : Json :=
  .object [.always "label" (.text o.label), .always "value" (.ofInt32 o.value)]

end OptionItem

namespace Attribute

/-- The declared fields. -/
def fieldNames : List String :=
  [ "logical_name", "entity_logical_name", "display_name", "type", "options", "targets",
    "is_primary_id", "is_logical", "value_type" ]

/-- Reads an attribute. -/
def ofJson? (j : Json) : Option Attribute := do
  let r ← j.record? fieldNames
  let logicalName ← r.required? "logical_name" Json.text?
  let entityName ← r.default? "entity_logical_name" "" Json.text?
  let displayName ← r.optional? "display_name" Json.text?
  let type ← r.required? "type" AttributeType.ofJson?
  let options ← r.default? "options" [] (Json.list? OptionItem.ofJson?)
  let targets ← r.default? "targets" [] (Json.list? Json.text?)
  let isPrimaryId ← r.default? "is_primary_id" false Json.bool?
  let isLogical ← r.default? "is_logical" false Json.bool?
  let valueType ← r.optional? "value_type" AttributeType.ofJson?
  some
    { logicalName, entityName, displayName, type, options, targets, isPrimaryId, isLogical,
      valueType }

/-- Writes an attribute. -/
def toJson (a : Attribute) : Json :=
  .object
    [ .optional "display_name" .text a.displayName,
      .always "entity_logical_name" (.text a.entityName),
      .always "is_logical" (.bool a.isLogical),
      .always "is_primary_id" (.bool a.isPrimaryId),
      .always "logical_name" (.text a.logicalName),
      .nonempty "options" OptionItem.toJson a.options,
      .nonempty "targets" .text a.targets,
      .always "type" a.type.toJson,
      .optional "value_type" AttributeType.toJson a.valueType ]

end Attribute

namespace Entity

/-- The declared fields. -/
def fieldNames : List String :=
  [ "logical_name", "object_type_code", "primary_id_attribute", "primary_name_attribute",
    "attributes" ]

/-- Reads an entity. -/
def ofJson? (j : Json) : Option Entity := do
  let r ← j.record? fieldNames
  let logicalName ← r.required? "logical_name" Json.text?
  let objectTypeCode ← r.optional? "object_type_code" Json.int32?
  let primaryIdAttribute ← r.optional? "primary_id_attribute" Json.text?
  let primaryNameAttribute ← r.optional? "primary_name_attribute" Json.text?
  let attributes ← r.optional? "attributes" (Json.list? Attribute.ofJson?)
  some { logicalName, objectTypeCode, primaryIdAttribute, primaryNameAttribute, attributes }

/-- Writes an entity. -/
def toJson (e : Entity) : Json :=
  .object
    [ .optional "attributes" (fun as => .arr (as.map Attribute.toJson)) e.attributes,
      .always "logical_name" (.text e.logicalName),
      .optional "object_type_code" .ofInt32 e.objectTypeCode,
      .optional "primary_id_attribute" .text e.primaryIdAttribute,
      .optional "primary_name_attribute" .text e.primaryNameAttribute ]

end Entity

end QueryEditor
