import QueryEditor.Schema.AttributeType

/-!
# Operators

An `Operator` compares an attribute with an operand.  `Operand` says of which type a literal
must be; an operator without an operand takes no value.
-/

namespace QueryEditor

/-- The type of an operator's operand. -/
inductive Operand
  /-- A literal of this type. -/
  | fixed (type : AttributeType)
  /-- A literal of the attribute's type. -/
  | ofAttribute
  deriving DecidableEq, Repr

/-- A comparison operator. -/
structure Operator where
  symbol : String
  /-- The type an attribute must have; any when there is none. -/
  attributeType : Option AttributeType := none
  /-- What it compares with; nothing when there is none. -/
  operand : Option Operand := none
  /-- Whether it takes a list of values. -/
  isMulti : Bool := false
  /-- Whether it may compare with another column. -/
  comparesColumns : Bool := false
  /-- Whether the query language knows it. -/
  isSupported : Bool := true
  deriving DecidableEq, Repr

namespace Operator

/-- Whether a value may follow. -/
def takesValue (op : Operator) : Bool := op.operand.isSome

/-- The operators whose value is a pattern with character ranges in brackets. -/
def isPattern (op : Operator) : Bool := op.symbol == "like" || op.symbol == "not-like"

/-- Whether it may be offered for an attribute of this type. -/
def appliesTo (op : Operator) (t : AttributeType) : Bool :=
  op.attributeType.all (·.accepts t)

end Operator

end QueryEditor
