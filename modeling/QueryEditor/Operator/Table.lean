import QueryEditor.Operator.Basic
import QueryEditor.Text.Blank

/-!
# The table of operators

`Operator.table` lists every operator in the order in which they are offered, and
`Operator.find?` looks one up by its symbol.
-/

namespace QueryEditor

namespace Operator

/-- An operator that compares any attribute with a literal of its type or with a column. -/
def comparison (symbol : String) : Operator :=
  { symbol, operand := some .ofAttribute, comparesColumns := true }

/-- An operator that compares any attribute with a list of literals of its type. -/
def membership (symbol : String) : Operator :=
  { symbol, operand := some .ofAttribute, isMulti := true }

/-- An operator without a value, for any attribute. -/
def test (symbol : String) : Operator := { symbol }

/-- An operator that compares text with a text. -/
def onText (symbol : String) : Operator :=
  { symbol, attributeType := some .string, operand := some (.fixed .string) }

/-- An operator on dates without a value. -/
def onDate (symbol : String) : Operator := { symbol, attributeType := some .dateTime }

/-- An operator that compares dates with a date. -/
def withDate (symbol : String) : Operator :=
  { symbol, attributeType := some .dateTime, operand := some (.fixed .dateTime) }

/-- An operator that compares dates with a whole number. -/
def withCount (symbol : String) : Operator :=
  { symbol, attributeType := some .dateTime, operand := some (.fixed .integer) }

/-- An operator on references without a value. -/
def onReference (symbol : String) : Operator := { symbol, attributeType := some .lookup }

/-- An operator that compares references with an identifier. -/
def withGuid (symbol : String) : Operator :=
  { symbol, attributeType := some .lookup, operand := some (.fixed .uniqueidentifier) }

/-- Every operator. -/
def table : List Operator :=
  [ -- comparison
    comparison "eq", comparison "ne", comparison "neq", comparison "gt", comparison "ge",
    comparison "lt", comparison "le", membership "in", membership "not-in",
    membership "between", membership "not-between", test "null", test "not-null",
    membership "contain-values", membership "not-contain-values",
    -- text
    onText "like", onText "not-like", onText "begins-with", onText "not-begin-with",
    onText "ends-with", onText "not-end-with",
    { onText "contains" with isSupported := false },
    { onText "does-not-contain" with isSupported := false },
    -- relative dates
    onDate "yesterday", onDate "today", onDate "tomorrow", onDate "last-seven-days",
    onDate "next-seven-days", onDate "last-week", onDate "this-week", onDate "next-week",
    onDate "last-month", onDate "this-month", onDate "next-month", onDate "last-year",
    onDate "this-year", onDate "next-year", withDate "on", withDate "on-or-before",
    withDate "on-or-after", withCount "last-x-hours", withCount "next-x-hours",
    withCount "last-x-days", withCount "next-x-days", withCount "last-x-weeks",
    withCount "next-x-weeks", withCount "last-x-months", withCount "next-x-months",
    withCount "last-x-years", withCount "next-x-years", withCount "olderthan-x-minutes",
    withCount "olderthan-x-hours", withCount "olderthan-x-days", withCount "olderthan-x-weeks",
    withCount "olderthan-x-months", withCount "olderthan-x-years",
    -- fiscal periods
    onDate "this-fiscal-year", onDate "this-fiscal-period", onDate "next-fiscal-year",
    onDate "next-fiscal-period", onDate "last-fiscal-year", onDate "last-fiscal-period",
    withCount "last-x-fiscal-years", withCount "last-x-fiscal-periods",
    withCount "next-x-fiscal-years", withCount "next-x-fiscal-periods",
    withCount "in-fiscal-year", withCount "in-fiscal-period",
    { withCount "in-fiscal-period-and-year" with isMulti := true },
    { withCount "in-or-before-fiscal-period-and-year" with isMulti := true },
    { withCount "in-or-after-fiscal-period-and-year" with isMulti := true },
    -- the current user and business
    onReference "eq-userid", onReference "ne-userid", onReference "eq-userteams",
    onReference "eq-useroruserteams", onReference "eq-useroruserhierarchy",
    onReference "eq-useroruserhierarchyandteams", onReference "eq-businessid",
    onReference "ne-businessid", test "eq-userlanguage",
    -- hierarchy
    withGuid "under", withGuid "eq-or-under", withGuid "not-under", withGuid "above",
    withGuid "eq-or-above" ]

/-- The operator with this symbol. -/
def find? (symbol : String) : Option Operator := table.find? (·.symbol == Text.trim symbol)

/-- The operators offered for an attribute of this type; all of them when none is given. -/
def offered (type : Option AttributeType) : List Operator :=
  table.filter fun op => type.all op.appliesTo

end Operator

end QueryEditor
