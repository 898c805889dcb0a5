import QueryEditor.Commit
import QueryEditor.Console.Site

/-!
# The command that checks a condition

The report goes to the standard output when the condition can be saved and to the error channel
when it cannot.
-/

namespace QueryEditor

namespace Console

/-- The lines of an issue. -/
def issueLines (i : Issue) : List String :=
  i.display :: (i.helpUrl.map fun url => s!"  see {url}").toList

/-- A report as text; `values` are those of the value nodes after a save. -/
def reportLines (r : Report) (values : Option (List String)) : List String :=
  r.issues.flatMap issueLines ++
    if r.blocksSave then []
    else (values.map fun vs => "values: " ++ ", ".intercalate vs).toList ++
      if r.isClean then ["ok"] else []

/-- A report as JSON. -/
def reportJson (r : Report) (values : Option (List String)) : Json :=
  .object
    [ .always "issues" (.arr (r.issues.map Issue.toJson)),
      .always "valid" (.bool !r.blocksSave),
      .optional "values" .texts values ]

/-- The text of a report. -/
def reportText (o : Options) (r : Report) (values : Option (List String)) : String :=
  match o.format with
  | .json => unlines [(reportJson r values).pretty]
  | .text => if o.isQuiet then "" else unlines (reportLines r values)

/-- The outcome of a check. -/
def reportOutcome (o : Options) (r : Report) (values : Option (List String)) : Outcome :=
  if r.blocksSave then { exitCode := 1, stderr := reportText o r values }
  else { stdout := reportText o r values }

/-- Validates a condition, and saves it if asked to. -/
def checkCondition (s : Session) (c : ConditionArguments) (strict save : Bool) : Outcome :=
  let site := c.site
  let attributes := s.attributesOf site
  if save then
    match site.query.save site.node site.condition attributes with
    | .ok saved => reportOutcome s.options saved.report (some (saved.query.values site.node))
    | .error report => reportOutcome s.options report none
  else
    let values := site.query.values site.node
    reportOutcome s.options (site.condition.validate attributes values strict) none

end Console

end QueryEditor
