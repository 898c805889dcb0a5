import QueryEditor.DecimalNumeral
import QueryEditor.Guid
import QueryEditor.Schema.AttributeType
import QueryEditor.TimestampLiteral

/-!
# Literals

Each type of value accepts literals of one shape, read without the white space around them.
`Literal.rejection?` says why a literal is turned away, if it is; `Literal.hasOpenRange` finds a
character range that a text pattern leaves open.
-/

namespace QueryEditor

namespace Literal

/-- Why a literal is turned away. -/
inductive Rejection
  /-- There should be none. -/
  | unexpected
  | boolean
  | dateTime
  | integer
  | decimal
  | guid
  /-- No literal of this type can be written. -/
  | unsupportedType (type : AttributeType)
  deriving DecidableEq, Repr

/-- Turns a literal away unless it passes. -/
def rejectUnless (passes : Bool) (r : Rejection) : Option Rejection :=
  if passes then none else some r

/-- Why a literal of type `t` is turned away.  The value inside a managed property is not
looked at. -/
def rejectionAs? (t : AttributeType) (value : String) : Option Rejection :=
  let cs := Text.trimmed value.toList
  match t with
  | .boolean => rejectUnless (cs == ['0'] || cs == ['1']) .boolean
  | .dateTime => rejectUnless (TimestampLiteral.read? value).isSome .dateTime
  | .integer | .state | .status | .picklist | .entityName =>
    rejectUnless (Numeral.int32? cs).isSome .integer
  | .bigInt => rejectUnless (Numeral.int64? cs).isSome .integer
  | .decimal | .double | .money => rejectUnless (DecimalNumeral.accepts cs) .decimal
  | .lookup | .customer | .owner | .uniqueidentifier =>
    rejectUnless (Guid.literal? value).isSome .guid
  | .string | .memo | .virtual | .managedProperty => none
  | .partyList | .calendarRules => some (.unsupportedType t)

/-- Why a literal is turned away; where no type is given there should be none. -/
def rejection? (type : Option AttributeType) (value : String) : Option Rejection :=
  match type with
  | none => rejectUnless (Text.blank value) .unexpected
  | some t => rejectionAs? t value

/-- Whether the last bracket of a pattern opens a character range.  Only that one counts: `[[]`
is the range that holds an opening bracket. -/
def hasOpenRange (pattern : String) : Bool :=
  pattern.toList.foldl (fun isOpen c =>
    if c = '[' then true else if c = ']' then false else isOpen) false

end Literal

end QueryEditor
