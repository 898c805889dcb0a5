import QueryEditor.Condition.Report
import QueryEditor.Query.Tree

/-!
# Saving a condition

Saving validates strictly; if nothing is wrong a pending list is taken apart into value nodes.
`Query.commit` is a run that changes query and condition in place.  `Query.save` is what it answers,
with what is there after a save that goes through, and `Query.afterSave` is what is there in any
case.
-/

namespace QueryEditor

/-- Whether a value is a pending list that a save has to take apart. -/
def Operator.hasPendingList (op : Operator) (value : String) : Bool :=
  op.isMulti && !Text.blank value

namespace Query

/-- The result of taking a pending list apart. -/
structure Unpacked where
  query : Query
  /-- The text that is left in the condition. -/
  value : String
  /-- The number of value nodes made. -/
  created : Nat

/-- Moves a pending list into value nodes under `node`, unless something is there already. -/
def unpack (q : Query) (node : Nat) (op : Operator) (value : String) : Unpacked :=
  if !op.hasPendingList value || !(q.children node).isEmpty then ⟨q, value, 0⟩
  else
    let values := ValueList.split value
    ⟨q.addValues node values, "", values.length⟩

/-- A run that changes a query and a condition of it in place, and may end with a report. -/
abbrev Edit := ExceptT Report (StateM (Query × Condition))

/-- What is answered to a save that goes through. -/
structure Receipt where
  /-- The warnings that did not keep it from being saved. -/
  report : Report
  /-- The number of value nodes made. -/
  created : Nat

/-- Saves the condition at `node`, or answers the report that keeps it from being saved. -/
def commit (node : Nat) (attributes : Option (List Attribute)) : Edit Receipt := do
  let (q, c) ← get
  let report := c.validate attributes (q.values node) true
  if report.blocksSave then
    throw report
  match Operator.find? c.operator with
  | none => return { report, created := 0 }
  | some op =>
    let u := q.unpack node op c.value
    set (u.query, { c with value := u.value })
    return { report, created := u.created }

/-- The query and the condition that are there after an attempt to save. -/
def afterSave (q : Query) (node : Nat) (c : Condition) (attributes : Option (List Attribute)) :
    Query × Condition :=
  ((commit node attributes).run (q, c)).2

/-- The result of a save: what is answered, with the query and the condition that are there then. -/
structure Saved extends Receipt where
  query : Query
  condition : Condition

/-- Saves a condition at `node`, or answers the report that keeps it from being saved. -/
def save (q : Query) (node : Nat) (c : Condition) (attributes : Option (List Attribute)) :
    Except Report Saved :=
  match (commit node attributes).run (q, c) with
  | (.ok receipt, query, condition) => .ok { receipt with query, condition }
  | (.error report, _) => .error report

end Query

end QueryEditor
