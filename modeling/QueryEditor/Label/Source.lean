import QueryEditor.ValueField

/-!
# Names of records

A `RecordSource` answers the name of a record, given its entity and its identifier.
`RecordSource.resolve` asks it for one entity after the other.
-/

namespace QueryEditor

/-- A record with its name. -/
structure Record where
  entity : String
  id : Guid
  name : String
  deriving DecidableEq

/-- Why a record has no name. -/
inductive LookupError
  /-- The entity has no such record. -/
  | notFound (schema : String) (id : Guid)
  /-- The source failed. -/
  | backend (text : String)
  /-- No candidate entity gave a name. -/
  | unresolved (id : Guid)
  deriving DecidableEq

/-- What to tell the user. -/
def LookupError.message : LookupError → String
  | notFound schema id => s!"record {id.render} not found in {schema}"
  | backend text => s!"record source error: {text}"
  | unresolved id => s!"no target schema could resolve record {id.render}"

/-- Answers the name of a record of an entity. -/
abbrev RecordSource := String → Guid → Except LookupError String

namespace RecordSource

open ValueField (LabelRequest)

/-- The source that knows the records of a list; a later one replaces an earlier one with the
same identifier. -/
def ofRecords (records : List Record) : RecordSource := fun schema id =>
  match records.reverse.find? fun r => r.entity == schema && r.id == id with
  | some r => .ok r.name
  | none => .error (.notFound schema id)

/-- The first name that the targets of a request give; failures on the way are passed over. -/
def resolve (source : RecordSource) (r : LabelRequest) : Except LookupError String :=
  match r.targets.findSome? fun schema => (source schema r.id).toOption with
  | some label => .ok label
  | none => .error (.unresolved r.id)

end RecordSource

end QueryEditor
