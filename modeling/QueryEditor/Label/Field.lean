import QueryEditor.Label.Source

/-!
# The name shown beside an identifier

A `LabelField` shows the name of the record that a value identifies.  Looking it up is a task in
the background whose result arrives later.  Each request and each cancellation starts a new
generation, and `LabelField.accept` takes only results of the current one, so that no result of
an earlier request is ever shown.
-/

namespace QueryEditor

namespace LabelField

open ValueField (LabelRequest)

/-- A name that a task has found. -/
structure Delivery where
  generation : Nat
  id : Guid
  label : String
  deriving DecidableEq

/-- The task of the current generation. -/
inductive Task
  /-- It has not run yet. -/
  | waiting (request : LabelRequest)
  /-- It has run. -/
  | done
  deriving DecidableEq

end LabelField

open LabelField in
/-- The state of the field. -/
structure LabelField where
  generation : Nat := 0
  /-- The identifier whose name is looked up or shown. -/
  current : Option Guid := none
  label : Option String := none
  /-- The task that was started and has not been waited for. -/
  task : Option Task := none
  /-- Results that have not been looked at, in the order of their arrival. -/
  inbox : List Delivery := []
  deriving DecidableEq

namespace LabelField

open ValueField (LabelRequest)

variable (source : RecordSource)

/-- Gives up the current lookup and shows nothing. -/
def cancel (f : LabelField) : LabelField :=
  { f with generation := f.generation + 1, current := none, label := none, task := none }

/-- Starts a lookup in place of the current one; its generation is that of the new state. -/
def request (f : LabelField) (r : LabelRequest) : LabelField :=
  { f.cancel with current := some r.id, task := some (.waiting r) }

/-- Shows a result if it belongs to the current request, and says whether it does. -/
def accept (f : LabelField) (d : Delivery) : Bool × LabelField :=
  if d.generation = f.generation ∧ f.current = some d.id then
    (true, { f with label := some d.label })
  else (false, f)

/-- The result of a task, if it finds a name. -/
def deliver (generation : Nat) (r : LabelRequest) : List Delivery :=
  match source.resolve r with
  | .ok label => [⟨generation, r.id, label⟩]
  | .error _ => []

/-- Lets the task run; its result waits in the inbox. -/
def run (f : LabelField) : LabelField :=
  match f.task with
  | some (.waiting r) =>
    { f with task := some .done, inbox := f.inbox ++ deliver source f.generation r }
  | _ => f

/-- Waits for the task and looks at all results that have arrived. -/
def settle (f : LabelField) : LabelField :=
  let f := f.run source
  f.inbox.foldl (fun f d => (f.accept d).2) { f with task := none, inbox := [] }

end LabelField

end QueryEditor
