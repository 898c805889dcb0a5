import QueryEditor.Condition.Issue
import QueryEditor.Operator.Table
import QueryEditor.Schema.Basic
import QueryEditor.ValueList

/-!
# Checks of a condition

Each check answers the issue it finds, if there is one.  A condition whose operator takes
several values holds them either as a pending list, one text with commas, or in value nodes of
their own.  Until a list is taken apart the operator's other checks wait (`Check.applies`).
-/

namespace QueryEditor

namespace Check

/-- An attribute has to be named.  Its name is looked up only in loaded metadata. -/
def attributeName (text : String) (known : Option (List Attribute)) : Option Issue :=
  if Text.blank text then some .attributeRequired
  else known.bind fun attributes =>
    if attributes.any (·.matchesText text) then none
    else some (.attributeUnknown (Text.trim text))

/-- An operator of the table has to be named. -/
def operator (text : String) : Option Issue :=
  if Text.blank text then some .operatorRequired
  else match Operator.find? text with
    | none => some (.operatorInvalid (Text.trim text))
    | some op => if op.isSupported then none else some (.operatorUnsupported op.symbol)

/-- Whether the values are where the checks look for them. -/
def applies (op : Operator) (children : Nat) : Bool := !op.isMulti || 0 < children

/-- The operator has to apply to attributes of this type. -/
def compatibility (op : Operator) (a : Option Attribute) (children : Nat) : Option Issue :=
  match applies op children, op.attributeType, a with
  | true, some required, some a =>
    if required.accepts a.type then none else some (.typeMismatch op.symbol a.typeDisplay)
  | _, _, _ => none

/-- The type that a literal must have.  Where the attribute decides and is not known, any text
will do; a managed property stands for itself. -/
def literalType (op : Operator) (a : Option Attribute) : Option AttributeType :=
  op.operand.map fun
    | .fixed t => t
    | .ofAttribute => (a.map (·.type)).getD .string

/-- A value and a column to compare with exclude each other. -/
def sources (value valueOf : String) : Option Issue :=
  if !Text.blank value && !Text.blank valueOf then some .conflictingSources else none

/-- The literal has to suit its type. -/
def literal (op : Operator) (type : Option AttributeType) (value : String) : Option Issue :=
  (Literal.rejection? type value).map (.rejectedLiteral op.symbol)

/-- The value has to suit the operator.  Once there are value nodes it has to be blank. -/
def value (op : Operator) (a : Option Attribute) (value valueOf : String) (children : Nat) :
    Option Issue :=
  match sources value valueOf with
  | some issue => some issue
  | none =>
    if !Text.blank valueOf || !applies op children then none
    else if op.isPattern && Literal.hasOpenRange value then some .openRange
    else literal op (if op.isMulti then none else literalType op a) value

/-- Every value node has to suit the operator. -/
def valueNodes (op : Operator) (a : Option Attribute) (values : List String) : List Issue :=
  values.filterMap (literal op (literalType op a))

/-- Every value of a pending list has to suit the operator. -/
def pendingList (op : Operator) (a : Option Attribute) (value : String) : List Issue :=
  if !op.isMulti || Text.blank value then [] else valueNodes op a (ValueList.split value)

end Check

end QueryEditor
