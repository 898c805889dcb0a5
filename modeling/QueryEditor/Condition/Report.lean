import QueryEditor.Condition.Basic
import QueryEditor.Condition.Check

/-!
# The report on a condition

`Condition.validate` runs every check in turn.  While the operator is not known the others wait;
the pending list is looked at only in a strict validation, which comes before a save.
-/

namespace QueryEditor

/-- All issues of a condition, in the order of the checks. -/
structure Report where
  issues : List Issue
  deriving DecidableEq

namespace Report

/-- Any error keeps a condition from being saved, no warning does. -/
def blocksSave (r : Report) : Bool := r.issues.any (·.isError)

/-- Whether nothing is wrong. -/
def isClean (r : Report) : Bool := r.issues.isEmpty

/-- The errors among the issues. -/
def errors (r : Report) : List Issue := r.issues.filter (·.isError)

/-- The warnings among the issues. -/
def warnings (r : Report) : List Issue := r.issues.filter (!·.isError)

end Report

namespace Check

/-- The checks that need an operator. -/
def withOperator (op : Operator) (a : Option Attribute) (c : Condition) (values : List String)
    (strict : Bool) : List Issue :=
  (compatibility op a values.length).toList ++
    (value op a c.value c.valueOf values.length).toList ++
    valueNodes op a values ++
    if strict && values.isEmpty then pendingList op a c.value else []

end Check

namespace Condition

/-- The operator that the condition names, unless naming it is an error. -/
def operator? (c : Condition) : Option Operator :=
  if (Check.operator c.operator).any (·.isError) then none else Operator.find? c.operator

/-- The attribute that the condition names. -/
def attribute? (c : Condition) (attributes : Option (List Attribute)) : Option Attribute :=
  attributes.bind fun as => Attribute.find? as c.attributeName

/-- Checks a condition with the attributes of its entity, if they are loaded, and the texts of
its value nodes. -/
def validate (attributes : Option (List Attribute)) (values : List String) (strict : Bool)
    (c : Condition) : Report where
  issues :=
    (Check.attributeName c.attributeName attributes).toList ++ (Check.operator c.operator).toList ++
      match c.operator? with
      | none => []
      | some op => Check.withOperator op (c.attribute? attributes) c values strict

end Condition

end QueryEditor
