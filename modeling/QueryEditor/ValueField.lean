import QueryEditor.Guid
import QueryEditor.Json.Basic
import QueryEditor.Operator.Basic
import QueryEditor.Schema.Basic

/-!
# The value field

How the user edits the value of a condition: as free text, with a picker, as an identifier or
through a search for records.  `ValueField.select` decides it from the operator, the attribute
and the value at hand: first comes a field for the attribute, and then, if the type of its value is
that of an identifier, `ValueField.withGuid` makes of it a field for one.
-/

namespace QueryEditor

namespace ValueField

/-- A way of editing a value. -/
inductive Mode
  | disabled
  | freeText
  | optionPicker
  | entityNamePicker
  | guidFreeText
  | guidLookup
  | booleanPicker
  deriving DecidableEq, Repr

/-- The name in reports. -/
def Mode.name : Mode → String
  | disabled => "disabled"
  | freeText => "free_text"
  | optionPicker => "option_picker"
  | entityNamePicker => "entity_name_picker"
  | guidFreeText => "guid_free_text"
  | guidLookup => "guid_lookup"
  | booleanPicker => "boolean_picker"

/-- A value to pick. -/
structure Choice where
  value : String
  label : String
  deriving DecidableEq

/-- Asks for the name of a record, tried against each entity in turn. -/
structure LabelRequest where
  id : Guid
  targets : List String
  deriving DecidableEq

/-- What the decision depends on. -/
structure Input where
  operator : Option Operator
  bound : Option Attribute
  value : String
  /-- The number of nodes under the condition. -/
  children : Nat
  /-- The entity that the user names for an identifier. -/
  target : String
  /-- The entity that the condition stands under. -/
  enclosing : Option String
  /-- All entities, if their list is available. -/
  entities : Option (List Entity)
  /-- Whether the user prefers a search for records. -/
  useLookup : Bool

end ValueField

open ValueField in
/-- The field as it is shown. -/
structure ValueField where
  mode : Mode
  /-- The value it shows. -/
  value : String
  /-- What can be picked. -/
  choices : List Choice := []
  /-- The position of the choice that is picked. -/
  selected : Option Nat := none
  hint : Option String := none
  /-- The entities that a search for records may go through. -/
  lookupTargets : List String := []
  /-- Whether a search for records can be offered. -/
  lookupAvailable : Bool := false
  labelRequest : Option LabelRequest := none
  deriving DecidableEq

namespace ValueField

/-! ### Entities behind an identifier -/

/-- The entities that a search for records goes through: the targets of a reference, the
enclosing entity for its own primary identifier, addresses for the identifier of an address that
is part of another record. -/
def searchTargets (a : Option Attribute) (enclosing : Option String) : List String :=
  match a with
  | none => []
  | some a =>
    if a.type.isReference then a.targets
    else if !a.isPrimaryId then []
    else if !a.isLogical then enclosing.toList
    else if "addressid".toList.isSuffixOf a.logicalName.toList then ["customeraddress"]
    else []

/-- The entities that may hold the record of an identifier: the one the user names, else the
targets of a reference, else the owner of a plain identifier. -/
def labelTargets (a : Option Attribute) (target : String) : List String :=
  if !Text.blank target then [Text.trim target]
  else match a with
    | none => []
    | some a =>
      if a.type.isReference then a.targets
      else if a.type = .uniqueidentifier ∧ a.entityName ≠ "" then [a.entityName]
      else []

/-! ### Fields of each kind -/

/-- A field that takes no value. -/
def disabled : ValueField := { mode := .disabled, value := "" }

/-- A field for any text. -/
def freeText (value : String) (hint : Option String) : ValueField :=
  { mode := .freeText, value, hint }

/-- A field with choices. -/
def picker (mode : Mode) (value : String) (choices : List Choice) : ValueField :=
  { mode, value, choices, selected := choices.findIdx? (·.value == Text.trim value) }

/-- The record whose name to look up: the one that the value identifies, unless the user does
not search or there may be several. -/
def labelRequest? (i : Input) (op : Operator) : Option LabelRequest :=
  if !i.useLookup || op.isMulti then none
  else match Guid.literal? i.value with
    | none => none
    | some id =>
      let targets := labelTargets i.bound i.target
      if id = Guid.nil ∨ targets = [] then none else some ⟨id, targets⟩

/-- Makes of a field one for an identifier.  A blank value becomes the identifier of no record,
unless there may be several. -/
def withGuid (f : ValueField) (i : Input) (op : Operator) : ValueField :=
  let lookupTargets := searchTargets i.bound i.enclosing
  let lookupAvailable := !lookupTargets.isEmpty
  { f with
    mode := if i.useLookup && lookupAvailable then .guidLookup else .guidFreeText
    value := if Text.blank f.value && !op.isMulti then Guid.nil.render else f.value
    lookupTargets
    lookupAvailable
    labelRequest := labelRequest? i op }

/-- The field for a value of some type: that of an identifier is edited as one. -/
def forType (f : ValueField) (i : Input) (op : Operator) (t : AttributeType) : ValueField :=
  if t.carriesGuid then f.withGuid i op else f

/-- A field for a literal of some type. -/
def literalField (i : Input) (op : Operator) (t : AttributeType) (hint : Option String) :
    ValueField :=
  (freeText i.value hint).forType i op t

/-! ### Choices -/

/-- The entries of an option set. -/
def optionChoices (a : Attribute) : List Choice := a.options.map fun o => ⟨o.literal, o.display⟩

/-- The entities that have an object type code. -/
def entityChoices (entities : List Entity) : List Choice :=
  entities.filterMap fun e => e.objectTypeCode.map fun code =>
    ⟨Numeral.ofInt32 code, e.logicalName⟩

/-- The two truth values. -/
def truthChoices : List Choice := [⟨"0", "False (0)"⟩, ⟨"1", "True (1)"⟩]

/-! ### The decision -/

/-- The type inside a managed property. -/
def managedType? (a : Attribute) : Option AttributeType :=
  if a.type = .managedProperty then a.valueType else none

/-- The hint for a list of values. -/
def listHint (t : AttributeType) : String :=
  s!"Enter comma-separated {t.name} values or add sub-nodes."

/-- The type of an attribute's values: for a managed property the one inside. -/
def valueType (a : Attribute) : AttributeType := (managedType? a).getD a.type

/-- The field for a single value of an attribute, whatever the type of the value: a picker if it is
known which values there are. -/
def offer (i : Input) (a : Attribute) : ValueField :=
  if a.type.isEnumerated then picker .optionPicker i.value (optionChoices a)
  else match a.type, i.entities with
    | .entityName, some entities => picker .entityNamePicker i.value (entityChoices entities)
    | _, _ =>
      if managedType? a = some .boolean then picker .booleanPicker i.value truthChoices
      else freeText i.value none

/-- The field for an operator whose operand is of the attribute's type. -/
def attributeField (i : Input) (op : Operator) (a : Attribute) : ValueField :=
  let t := valueType a
  if op.isMulti then
    if i.children = 0 then literalField i op t (some (listHint t)) else disabled
  else (offer i a).forType i op t

/-- The field for the operator, attribute and value at hand.  Without an operator any text can
be typed. -/
def select (i : Input) : ValueField :=
  match i.operator with
  | none => freeText i.value none
  | some op => match op.operand, i.bound with
    | none, _ => disabled
    | some (.fixed t), _ => literalField i op t none
    | some .ofAttribute, none => literalField i op .string none
    | some .ofAttribute, some a => attributeField i op a

/-! ### Writing -/

/-- Writes a choice. -/
def Choice.toJson (c : Choice) : Json :=
  .object [.always "label" (.text c.label), .always "value" (.text c.value)]

/-- Writes a request for a name. -/
def LabelRequest.toJson (r : LabelRequest) : Json :=
  .object [.always "id" (.text r.id.render), .always "targets" (.texts r.targets)]

/-- Writes a field. -/
def toJson (f : ValueField) : Json :=
  .object
    [ .nonempty "choices" Choice.toJson f.choices,
      .optional "hint" .text f.hint,
      .optional "label_request" LabelRequest.toJson f.labelRequest,
      .always "lookup_available" (.bool f.lookupAvailable),
      .nonempty "lookup_targets" .text f.lookupTargets,
      .always "mode" (.text f.mode.name),
      .optional "selected" .ofNat f.selected,
      .always "value" (.text f.value) ]

end ValueField

end QueryEditor
