import QueryEditor.Operator.Table
import QueryEditor.Schema.Basic
import QueryEditor.Server

/-!
# What the editor offers

The columns that a condition may compare its attribute with.
-/

namespace QueryEditor

/-- The attributes that a condition may compare `a` with: those of its type.  There is no such
comparison when the server or the operator does not know it, or when the condition is about a
linked entity. -/
def Settings.comparisonColumns? (s : Settings) (op : Operator) (a : Attribute)
    (attributes : List Attribute) (isScoped : Bool) : Option (List Attribute) :=
  if s.columnComparison && op.comparesColumns && !isScoped then
    some (attributes.filter (·.type == a.type))
  else none

end QueryEditor
