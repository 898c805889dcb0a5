import QueryEditor.Console.Site
import QueryEditor.Operator.Table

/-!
# The command that lists operators
-/

namespace QueryEditor

namespace Console

/-- What an operator compares with. -/
def operandName (op : Operator) : String :=
  match op.operand with
  | none => "none"
  | some .ofAttribute => "attribute"
  | some (.fixed t) => t.name

/-- Fills a text up with spaces. -/
def padded (width : Nat) (s : String) : String :=
  s ++ String.ofList (List.replicate (width - s.length) ' ')

/-- What is special about an operator. -/
def operatorFlags (op : Operator) : List String :=
  (if op.isMulti then ["multi"] else []) ++ (if op.comparesColumns then ["column"] else []) ++
    if op.isSupported then [] else ["unsupported"]

/-- The line of an operator. -/
def operatorLine (op : Operator) : String :=
  "  " ++ padded 40 op.symbol ++ " " ++ padded 10 (operandName op) ++ " " ++
    ",".intercalate (operatorFlags op)

/-- An operator as JSON. -/
def operatorJson (op : Operator) : Json :=
  .object
    [ .always "column_comparison" (.bool op.comparesColumns),
      .always "multi_valued" (.bool op.isMulti),
      .always "supported" (.bool op.isSupported),
      .always "symbol" (.text op.symbol),
      .always "value" (.text (operandName op)) ]

/-- The attribute that the operators are to suit. -/
def boundAttribute (s : Session) (about : Option (String × String)) :
    Except String (Option Attribute) :=
  match about with
  | none => .ok none
  | some (entity, text) => match s.catalog.attributes? entity with
    | none => .error s!"error: no metadata loaded for entity '{entity}'"
    | some attributes => match Attribute.find? attributes text with
      | none => .error s!"error: attribute '{text}' not found on '{entity}'"
      | some a => .ok (some a)

/-- Lists the operators, or those that suit an attribute. -/
def listOperators (s : Session) (about : Option (String × String)) : Outcome :=
  match boundAttribute s about with
  | .error message => .failure s.options message
  | .ok bound =>
    let operators := Operator.offered (bound.map (·.type))
    if s.options.isQuiet then {}
    else match s.options.format with
      | .json => .printJson (.arr (operators.map operatorJson))
      | .text =>
        let heading := bound.map fun a => s!"Operators for {a.logicalName} ({a.typeDisplay})"
        { stdout := unlines (heading.toList ++ operators.map operatorLine) }

end Console

end QueryEditor
