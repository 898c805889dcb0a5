import QueryEditor.Condition.Report
import QueryEditor.Console.Site
import QueryEditor.Label.Field
import QueryEditor.Offer

/-!
# The command that shows how a value is edited
-/

namespace QueryEditor

namespace Console

/-- What the command shows. -/
structure ModeView where
  field : ValueField
  /-- The columns that the condition may compare its attribute with. -/
  columns : Option (List String)
  /-- The name of the record that the value identifies. -/
  label : Option String

/-- The name that a request finds among records. -/
def lookUp (records : List Record) (r : ValueField.LabelRequest) : Option String :=
  ((({} : LabelField).request r).settle (RecordSource.ofRecords records)).label

/-- The value field of a condition. -/
def fieldOf (s : Session) (site : Site) (target : String) : ValueField :=
  ValueField.select
    { operator := Operator.find? site.condition.operator
      bound := site.condition.attribute? (s.attributesOf site)
      value := site.condition.value
      children := (site.query.children site.node).length
      target
      enclosing := site.query.enclosing? site.node
      entities := if s.catalog.isListed then some s.catalog.entities else none
      useLookup := s.settings.useLookup }

/-- The columns that a condition may compare its attribute with. -/
def columnsOf (s : Session) (site : Site) : Option (List String) := do
  let op ← Operator.find? site.condition.operator
  let attributes ← s.attributesOf site
  let a ← site.condition.attribute? (some attributes)
  let columns ← s.settings.comparisonColumns? op a attributes site.condition.entityName.isSome
  some (columns.map (·.logicalName))

/-- Works out what to show. -/
def modeView (s : Session) (c : ConditionArguments) (target : String) (resolve : Bool) :
    ModeView :=
  let site := c.site
  let field := fieldOf s site target
  { field
    columns := columnsOf s site
    label := if resolve then field.labelRequest.bind (lookUp s.records) else none }

namespace ModeView

/-- The line of a choice. -/
def choiceLine (selected : Option Nat) (i : Nat) (c : ValueField.Choice) : String :=
  let marker := if selected = some i then "*" else " "
  s!" {marker} {c.label}"

/-- What is shown as text. -/
def lines (v : ModeView) : List String :=
  [s!"mode: {v.field.mode.name}", s!"value: {v.field.value}"] ++
    (v.field.hint.map fun hint => s!"hint: {hint}").toList ++
    v.field.choices.mapIdx (choiceLine v.field.selected) ++
    (if v.field.lookupTargets.isEmpty then []
      else ["lookup: " ++ ", ".intercalate v.field.lookupTargets]) ++
    (v.label.map fun label => s!"label: {label}").toList ++
    (v.columns.map fun columns => "value of: " ++ ", ".intercalate columns).toList

/-- What is shown as JSON. -/
def toJson (v : ModeView) : Json :=
  .object
    [ .always "field" v.field.toJson,
      .optional "label" .text v.label,
      .optional "value_of_candidates" .texts v.columns ]

end ModeView

/-- Shows how the value of a condition is edited. -/
def showMode (s : Session) (c : ConditionArguments) (target : String) (resolve : Bool) : Outcome :=
  let view := modeView s c target resolve
  if s.options.isQuiet then {}
  else match s.options.format with
    | .json => .printJson view.toJson
    | .text => { stdout := unlines view.lines }

end Console

end QueryEditor
