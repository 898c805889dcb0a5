import QueryEditor.Json.Basic
import QueryEditor.Literal

/-!
# Issues of a condition

An `Issue` is one thing wrong with a condition, told by its cause.  Warnings are advice; an
error keeps the condition from being saved.
-/

namespace QueryEditor

/-- How much an issue weighs. -/
inductive Severity
  | warning
  | error
  deriving DecidableEq, Repr

/-- The part of a condition that an issue is about. -/
inductive ConditionField
  | attributeName
  | operator
  | value
  deriving DecidableEq, Repr

/-- Something wrong with a condition. -/
inductive Issue
  | attributeRequired
  /-- The loaded metadata has no attribute of this name. -/
  | attributeUnknown (name : String)
  | operatorRequired
  /-- No operator has this symbol. -/
  | operatorInvalid (symbol : String)
  /-- The query language does not know this operator. -/
  | operatorUnsupported (symbol : String)
  /-- The operator does not apply to attributes of this type. -/
  | typeMismatch (symbol typeDisplay : String)
  /-- Both a value and a column to compare with are given. -/
  | conflictingSources
  /-- A character range of the pattern is not closed. -/
  | openRange
  /-- The literal does not suit the operator. -/
  | rejectedLiteral (symbol : String) (why : Literal.Rejection)
  deriving DecidableEq, Repr

namespace Severity

/-- The name in reports. -/
def name : Severity → String
  | warning => "warning"
  | error => "error"

end Severity

namespace ConditionField

/-- The name in reports. -/
def name : ConditionField → String
  | attributeName => "attribute"
  | operator => "operator"
  | value => "value"

/-- The heading in lines for the user. -/
def heading : ConditionField → String
  | attributeName => "Attribute"
  | operator => "Operator"
  | value => "Value"

end ConditionField

namespace Literal.Rejection

/-- The kind of issue it makes, as reports name it. -/
def kind : Rejection → String
  | unexpected => "UnexpectedValue"
  | boolean => "InvalidBoolean"
  | dateTime => "InvalidDateTime"
  | integer => "InvalidInteger"
  | decimal => "InvalidDecimal"
  | guid => "InvalidGuid"
  | unsupportedType _ => "UnsupportedType"

/-- What to tell the user of the operator `symbol`. -/
def message (symbol : String) : Rejection → String
  | unexpected => s!"Operator {symbol} does not allow a value"
  | boolean => "Value must be 0 or 1"
  | dateTime => s!"Operator {symbol} requires a date value"
  | integer => s!"Operator {symbol} requires a whole number value"
  | decimal => s!"Operator {symbol} requires a decimal value"
  | guid => s!"Operator {symbol} requires a guid in the format {Guid.nil.render}"
  | unsupportedType t => s!"Unsupported condition attribute type: {t.name}"

end Literal.Rejection

namespace Issue

/-- Where to read which operators the query language knows. -/
def operatorHelpUrl : String :=
  "https://learn.microsoft.com/power-apps/developer/data-platform/fetchxml/reference/operators"

/-- The part of the condition it is about. -/
def field : Issue → ConditionField
  | attributeRequired | attributeUnknown _ => .attributeName
  | operatorRequired | operatorInvalid _ | operatorUnsupported _ | typeMismatch .. => .operator
  | conflictingSources | openRange | rejectedLiteral .. => .value

/-- How much it weighs. -/
def severity : Issue → Severity
  | attributeUnknown _ | operatorUnsupported _ => .warning
  | _ => .error

/-- The kind of issue, as reports name it. -/
def kind : Issue → String
  | attributeRequired => "Required"
  | attributeUnknown _ => "Unrecognized"
  | operatorRequired => "Required"
  | operatorInvalid _ => "Invalid"
  | operatorUnsupported _ => "Unsupported"
  | typeMismatch .. => "OperatorAttributeTypeMismatch"
  | conflictingSources => "ConflictingValueSources"
  | openRange => "UnbalancedPattern"
  | rejectedLiteral _ why => why.kind

/-- What to tell the user. -/
def message : Issue → String
  | attributeRequired => "Attribute is required"
  | attributeUnknown name => s!"Attribute '{name}' is not in the loaded metadata"
  | operatorRequired => "Operator is required"
  | operatorInvalid symbol => s!"'{symbol}' is not a valid operator"
  | operatorUnsupported symbol =>
    s!"Operator {symbol} is available in the editor but not supported by the query language"
  | typeMismatch symbol typeDisplay =>
    s!"Operator {symbol} is not valid for attribute of type {typeDisplay}"
  | conflictingSources => "Value and Value Of cannot both be set"
  | openRange =>
    "LIKE pattern has mismatched brackets. Close every character range; " ++
      "to match the character '[' use '[[]'"
  | rejectedLiteral symbol why => why.message symbol

/-- Where to read more. -/
def helpUrl : Issue → Option String
  | operatorUnsupported _ => some operatorHelpUrl
  | _ => none

/-- Whether it keeps the condition from being saved. -/
def isError (i : Issue) : Bool := i.severity == .error

/-- The line for the user. -/
def display (i : Issue) : String := s!"{i.severity.name}: {i.field.heading}: {i.message}"

/-- Writes an issue. -/
def toJson (i : Issue) : Json :=
  .object
    [ .always "field" (.text i.field.name),
      .optional "help_url" .text i.helpUrl,
      .always "kind" (.text i.kind),
      .always "message" (.text i.message),
      .always "severity" (.text i.severity.name) ]

end Issue

end QueryEditor
