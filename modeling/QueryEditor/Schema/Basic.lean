import QueryEditor.Schema.AttributeType
import QueryEditor.Text.Blank
import QueryEditor.Text.Numeral

/-!
# Entities and their attributes

An `Entity` is a kind of record, with a list of `Attribute`s once its details are loaded.  A
user names an attribute by its logical or its display name (`Attribute.matchesText`).
-/

namespace QueryEditor

/-- An entry of an option set. -/
structure OptionItem where
  value : Int32
  label : String
  deriving DecidableEq

/-- The literal that picking the entry writes into a condition. -/
def OptionItem.literal (o : OptionItem) : String := Numeral.ofInt32 o.value

/-- The entry as it is offered to the user. -/
def OptionItem.display (o : OptionItem) : String :=
  o.label ++ " (" ++ Numeral.ofInt32 o.value ++ ")"

/-- An attribute of an entity. -/
structure Attribute where
  logicalName : String
  /-- The entity it belongs to; empty when a snapshot leaves it open. -/
  entityName : String := ""
  displayName : Option String := none
  type : AttributeType
  options : List OptionItem := []
  /-- The entities whose records a reference may name. -/
  targets : List String := []
  isPrimaryId : Bool := false
  isLogical : Bool := false
  /-- The type of the value inside a managed property. -/
  valueType : Option AttributeType := none
  deriving DecidableEq

namespace Attribute

/-- Whether a text names the attribute. -/
def matchesText (a : Attribute) (text : String) : Bool :=
  a.logicalName == Text.trim text || a.displayName == some (Text.trim text)

/-- The first attribute of a list that a text names. -/
def find? (attributes : List Attribute) (text : String) : Option Attribute :=
  attributes.find? (·.matchesText text)

/-- The type as messages name it: with the targets of a reference, or the type inside a managed
property. -/
def typeDisplay (a : Attribute) : String :=
  if a.type.isReference && !a.targets.isEmpty then
    a.type.name ++ " (" ++ ", ".intercalate a.targets ++ ")"
  else match a.type, a.valueType with
    | .managedProperty, some inner => a.type.name ++ " (" ++ inner.name ++ ")"
    | t, _ => t.name

/-- Names an owner where there is none. -/
def adopt (entity : String) (a : Attribute) : Attribute :=
  if a.entityName = "" then { a with entityName := entity } else a

end Attribute

/-- A kind of record. -/
structure Entity where
  logicalName : String
  objectTypeCode : Option Int32 := none
  primaryIdAttribute : Option String := none
  primaryNameAttribute : Option String := none
  /-- Its attributes, once they are loaded. -/
  attributes : Option (List Attribute) := none
  deriving DecidableEq

namespace Entity

/-- The loaded attribute with this logical name. -/
def attribute? (e : Entity) (logicalName : String) : Option Attribute :=
  e.attributes.bind fun as => as.find? (·.logicalName == logicalName)

/-- Makes the entity the owner of its attributes that have none. -/
def adoptAttributes (e : Entity) : Entity :=
  { e with attributes := e.attributes.map fun as => as.map (Attribute.adopt e.logicalName) }

end Entity

end QueryEditor
