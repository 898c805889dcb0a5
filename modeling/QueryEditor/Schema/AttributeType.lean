/-!
# Types of attributes

`AttributeType` lists the types an attribute of a schema may have, with the three classes of
types that the editor treats alike: those that carry an identifier, those that refer to records
of other entities, and those backed by an option set.
-/

namespace QueryEditor

/-- The type of an attribute. -/
inductive AttributeType
  | boolean
  | customer
  | dateTime
  | decimal
  | double
  | integer
  | lookup
  | memo
  | money
  | owner
  | partyList
  | picklist
  | state
  | status
  | string
  | uniqueidentifier
  | calendarRules
  | virtual
  | bigInt
  | managedProperty
  | entityName
  deriving DecidableEq, Repr

namespace AttributeType

/-- Every type, in the order in which they are listed. -/
def all : List AttributeType :=
  [ boolean, customer, dateTime, decimal, double, integer, lookup, memo, money, owner,
    partyList, picklist, state, status, string, uniqueidentifier, calendarRules, virtual,
    bigInt, managedProperty, entityName ]

/-- The name shown to the user. -/
def name : AttributeType → String
  | boolean => "Boolean"
  | customer => "Customer"
  | dateTime => "DateTime"
  | decimal => "Decimal"
  | double => "Double"
  | integer => "Integer"
  | lookup => "Lookup"
  | memo => "Memo"
  | money => "Money"
  | owner => "Owner"
  | partyList => "PartyList"
  | picklist => "Picklist"
  | state => "State"
  | status => "Status"
  | string => "String"
  | uniqueidentifier => "Uniqueidentifier"
  | calendarRules => "CalendarRules"
  | virtual => "Virtual"
  | bigInt => "BigInt"
  | managedProperty => "ManagedProperty"
  | entityName => "EntityName"

/-- The name written in a metadata snapshot. -/
def tag : AttributeType → String
  | boolean => "boolean"
  | customer => "customer"
  | dateTime => "datetime"
  | decimal => "decimal"
  | double => "double"
  | integer => "integer"
  | lookup => "lookup"
  | memo => "memo"
  | money => "money"
  | owner => "owner"
  | partyList => "partylist"
  | picklist => "picklist"
  | state => "state"
  | status => "status"
  | string => "string"
  | uniqueidentifier => "uniqueidentifier"
  | calendarRules => "calendarrules"
  | virtual => "virtual"
  | bigInt => "bigint"
  | managedProperty => "managedproperty"
  | entityName => "entityname"

/-- The type with this tag. -/
def ofTag? (s : String) : Option AttributeType := all.find? (·.tag == s)

/-- The types whose values are identifiers. -/
def carriesGuid : AttributeType → Bool
  | lookup | customer | owner | uniqueidentifier => true
  | _ => false

/-- The types whose attributes refer to records of other entities. -/
def isReference : AttributeType → Bool
  | lookup | customer | owner => true
  | _ => false

/-- The types backed by an option set. -/
def isEnumerated : AttributeType → Bool
  | picklist | state | status => true
  | _ => false

/-- Whether an operator that requires the type `required` applies to an attribute of type
`actual`: the types are equal, or the attribute holds long text where text is required or some
other record identifier where a lookup is. -/
def accepts (required actual : AttributeType) : Bool :=
  required == actual || match required, actual with
    | string, memo | lookup, owner | lookup, customer | lookup, uniqueidentifier => true
    | _, _ => false

theorem carriesGuid_of_isEnumerated {t : AttributeType} (h : t.isEnumerated = true) :
    t.carriesGuid = false := by
  cases t
  case picklist | state | status => rfl
  all_goals cases h

theorem ofTag?_tag (t : AttributeType) : ofTag? t.tag = some t := by cases t <;> decide

end AttributeType

end QueryEditor
