import QueryEditor.Proofs.LabelRuns

/-!
# What a label field answers

A caller asks a `LabelField` for names, gives requests up, waits for the answer and hands in
messages; while it waits for something else, the task in the background may run.  Whatever has
happened before, the answer is that of the last request, or none where that was given up.

* `LabelField.Stage` : how far the last request has come.
* `LabelField.Awaits.act` : what an action makes of it.
* `LabelField.Awaits.label_settle` : the answer from there on.
* `LabelField.settle_answers_last_request` : **the answers in any sequence of actions.**
-/

namespace QueryEditor

namespace LabelField

open ValueField (LabelRequest)

/-- What can happen to a field. -/
inductive Action
  | request (r : LabelRequest)
  | cancel
  | settle
  /-- A message is handed in. -/
  | accept (d : Delivery)
  /-- The caller waits for something else, and the task runs. -/
  | yield
  deriving DecidableEq

/-- The request that is current after an action. -/
def Action.current? (last : Option LabelRequest) : Action → Option LabelRequest
  | request r => some r
  | cancel => none
  | _ => last

/-- The most recent of all requests and cancellations, if it is a request. -/
def lastRequest? (actions : List Action) : Option LabelRequest :=
  actions.foldl Action.current? none

section Actions

variable (source : RecordSource)

/-- The field after an action. -/
def act (f : LabelField) : Action → LabelField
  | .request r => f.request r
  | .cancel => f.cancel
  | .settle => f.settle source
  | .accept d => (f.accept d).2
  | .yield => f.run source

/-- The field after some actions. -/
def carryOut (f : LabelField) (actions : List Action) : LabelField := actions.foldl (act source) f

/-- The generations that the requests among some actions answer. -/
def generations (f : LabelField) : List Action → List Nat
  | [] => []
  | .request r :: actions =>
    (f.request r).generation :: generations (f.request r) actions
  | a :: actions => generations (f.act source a) actions

/-- A message is of another generation or about another identifier. -/
def Refuses (f : LabelField) (d : Delivery) : Prop :=
  d.generation ≠ f.generation ∨ f.current ≠ some d.id

/-- A message that is handed in is not current. -/
def Allows (f : LabelField) : Action → Prop
  | .accept d => f.Refuses d
  | _ => True

/-- Of the messages that are handed in none is current. -/
def AllowsAll (f : LabelField) : List Action → Prop
  | [] => True
  | a :: actions => f.Allows a ∧ AllowsAll (f.act source a) actions

end Actions

variable {source : RecordSource} {f : LabelField} {d : Delivery} {ds : List Delivery}
  {r : LabelRequest} {last : Option LabelRequest} {a : Action} {actions : List Action}

/-! ### Messages -/

theorem Refuses.accept (h : f.Refuses d) : f.accept d = (false, f) := by
  refine if_neg fun hc => ?_
  obtain hg | hi := h
  · exact hg hc.1
  · exact hi hc.2

/-- Messages that are refused change nothing. -/
theorem foldl_accept_of_refuses (h : ∀ d ∈ ds, f.Refuses d) :
    ds.foldl (fun f d => (f.accept d).2) f = f := by
  induction ds with
  | nil => rfl
  | cons d ds ih =>
    obtain ⟨hd, hds⟩ := List.forall_mem_cons.1 h
    rw [List.foldl_cons, hd.accept]
    exact ih hds

/-- The message of the current request is shown, if there is one. -/
theorem foldl_accept_deliver (hcurrent : f.current = some r.id) (hlabel : f.label = none) :
    (deliver source f.generation r).foldl (fun f d => (f.accept d).2) f =
      { f with label := (source.resolve r).toOption } := by
  unfold deliver
  cases source.resolve r with
  | ok label => simp [LabelField.accept, hcurrent, Except.toOption]
  | error e =>
    obtain ⟨g, c, l, t, i⟩ := f
    obtain rfl : l = none := hlabel
    rfl

/-- The name that a request finds is the first that one of its targets gives. -/
theorem toOption_resolve (source : RecordSource) (r : LabelRequest) :
    (source.resolve r).toOption =
      r.targets.findSome? fun schema => (source schema r.id).toOption := by
  unfold RecordSource.resolve
  cases r.targets.findSome? fun schema => (source schema r.id).toOption <;> rfl

/-! ### How far the last request has come -/

/-- How far a field has come with the last request. -/
inductive Stage (source : RecordSource) (f : LabelField) : Option LabelRequest → Prop
  /-- There is none. -/
  | idle (hcurrent : f.current = none) (hlabel : f.label = none) (htask : f.task = none) :
      Stage source f none
  /-- Its task has not run; what has arrived is older. -/
  | waiting (r : LabelRequest) (hcurrent : f.current = some r.id) (hlabel : f.label = none)
      (htask : f.task = some (.waiting r)) (holder : ∀ d ∈ f.inbox, d.generation < f.generation) :
      Stage source f (some r)
  /-- Its message has arrived last. -/
  | arrived (r : LabelRequest) (old : List Delivery) (hcurrent : f.current = some r.id)
      (hlabel : f.label = none) (htask : f.task = some .done)
      (hinbox : f.inbox = old ++ deliver source f.generation r)
      (holder : ∀ d ∈ old, d.generation < f.generation) : Stage source f (some r)
  /-- Its name is shown, if it has one. -/
  | settled (r : LabelRequest) (hcurrent : f.current = some r.id)
      (hlabel : f.label = (source.resolve r).toOption) (htask : f.task = none)
      (hinbox : f.inbox = []) : Stage source f (some r)

/-- What is known of a field whose last request is given. -/
structure Awaits (source : RecordSource) (f : LabelField) (last : Option LabelRequest) : Prop where
  stage : Stage source f last
  /-- Nothing has arrived of a generation to come. -/
  generation_le : ∀ d ∈ f.inbox, d.generation ≤ f.generation

namespace Awaits

theorem new (source : RecordSource) : Awaits source {} none :=
  ⟨.idle rfl rfl rfl, by simp⟩

theorem cancel (h : Awaits source f last) : Awaits source f.cancel none :=
  ⟨.idle rfl rfl rfl, fun d hd => Nat.le_succ_of_le (h.generation_le d hd)⟩

theorem request (h : Awaits source f last) (r : LabelRequest) :
    Awaits source (f.request r) (some r) where
  stage := .waiting r rfl rfl rfl fun d hd => Nat.lt_succ_of_le (h.generation_le d hd)
  generation_le d hd := Nat.le_succ_of_le (h.generation_le d hd)

theorem run (h : Awaits source f last) : Awaits source (f.run source) last := by
  unfold LabelField.run
  cases h.stage with
  | waiting r hcurrent hlabel htask holder =>
    rw [htask]
    refine ⟨.arrived r f.inbox hcurrent hlabel rfl rfl holder, fun d hd => ?_⟩
    obtain hd | hd := List.mem_append.1 hd
    · exact h.generation_le d hd
    · exact Nat.le_of_eq (mem_deliver.1 hd).1
  | idle hcurrent hlabel htask => rw [htask]; exact h
  | arrived r old hcurrent hlabel htask hinbox holder => rw [htask]; exact h
  | settled r hcurrent hlabel htask hinbox => rw [htask]; exact h

theorem current_eq (h : Awaits source f last) : f.current = last.map (·.id) := by
  cases h.stage with
  | idle hcurrent => exact hcurrent
  | waiting r hcurrent => exact hcurrent
  | arrived r old hcurrent => exact hcurrent
  | settled r hcurrent => exact hcurrent

/-- After waiting, the name of the last request is shown, and nothing is left to look at. -/
theorem settle_eq (h : Awaits source f last) :
    f.settle source = { f.run source with
      label := last.bind fun r => (source.resolve r).toOption, task := none, inbox := [] } := by
  have hrun := h.run
  have hwaited (r : LabelRequest) : (f.run source).task ≠ some (.waiting r) := by
    unfold LabelField.run
    split
    case h_1 => simp
    case h_2 hnot => exact fun htask => hnot r htask
  unfold LabelField.settle
  generalize f.run source = g at hrun hwaited
  obtain ⟨generation, current, label, task, inbox⟩ := g
  cases hrun.stage with
  | waiting r _ _ htask _ => exact absurd htask (hwaited r)
  | idle hcurrent hlabel htask =>
    obtain rfl : current = none := hcurrent
    obtain rfl : label = none := hlabel
    exact foldl_accept_of_refuses fun d _ => .inr (by simp)
  | arrived r old hcurrent hlabel htask hinbox holder =>
    -- the older messages are refused, and that of the request is looked at last
    obtain rfl : inbox = old ++ deliver source generation r := hinbox
    obtain rfl : label = none := hlabel
    let emptied : LabelField := ⟨generation, current, none, none, []⟩
    have hrefused : ∀ d ∈ old, emptied.Refuses d := fun d hd => .inl (Nat.ne_of_lt (holder d hd))
    change (old ++ deliver source generation r).foldl (fun f d => (f.accept d).2) emptied = _
    rw [List.foldl_append, foldl_accept_of_refuses hrefused]
    exact foldl_accept_deliver hcurrent rfl
  | settled r hcurrent hlabel htask hinbox =>
    obtain rfl : label = (source.resolve r).toOption := hlabel
    obtain rfl : inbox = [] := hinbox
    rfl

theorem label_settle (h : Awaits source f last) :
    (f.settle source).label = last.bind fun r => (source.resolve r).toOption := by
  rw [h.settle_eq]

theorem settle (h : Awaits source f last) : Awaits source (f.settle source) last where
  stage := by
    have hcurrent := h.run.current_eq
    rw [h.settle_eq]
    cases last with
    | none => exact .idle hcurrent rfl rfl
    | some r => exact .settled r hcurrent rfl rfl rfl
  generation_le := by
    rw [h.settle_eq]
    simp

/-- **What an action makes of a field.** -/
theorem act (h : Awaits source f last) (a : Action) (ha : f.Allows a) :
    Awaits source (f.act source a) (a.current? last) := by
  cases a with
  | request r => exact h.request r
  | cancel => exact h.cancel
  | settle => exact h.settle
  | accept d =>
    rw [LabelField.act, Refuses.accept ha]
    exact h
  | yield => exact h.run

/-- What some actions make of a field. -/
theorem carryOut (h : Awaits source f last) (hall : AllowsAll source f actions) :
    Awaits source (f.carryOut source actions) (actions.foldl Action.current? last) := by
  induction actions generalizing f last with
  | nil => exact h
  | cons a actions ih => exact ih (h.act a hall.1) hall.2

end Awaits

/-! ### Generations -/

theorem act_generation_le (f : LabelField) (a : Action) :
    f.generation ≤ (f.act source a).generation := by
  -- what a session does to its field, the field does by itself
  let s : Session := { field := f }
  cases a with
  | request r =>
    have hstep : Session.Step source s (s.request r) := .request s r
    exact hstep.generation_le
  | cancel =>
    have hstep : Session.Step source s s.cancel := .cancel s
    exact hstep.generation_le
  | settle =>
    have hstep : Session.Step source s (s.settle source) := .settle s
    have hle := hstep.generation_le
    rwa [Session.settle_field] at hle
  | accept d => exact Nat.le_of_eq (Session.foldl_accept_generation s [d]).symm
  | yield =>
    have hstep : Session.Step source s (s.run source) := .run s
    exact hstep.generation_le

/-- Requests answer generations to come. -/
theorem lt_of_mem_generations {n : Nat} (h : n ∈ generations source f actions) :
    f.generation < n := by
  induction actions generalizing f with
  | nil => cases h
  | cons a actions ih =>
    cases a with
    | request r =>
      obtain rfl | h := List.mem_cons.1 h
      · exact Nat.lt_succ_self _
      · exact Nat.lt_of_succ_lt (ih h)
    | _ => exact Nat.lt_of_le_of_lt (act_generation_le f _) (ih h)

theorem generations_pairwise (source : RecordSource) (f : LabelField) (actions : List Action) :
    (generations source f actions).Pairwise (· < ·) := by
  induction actions generalizing f with
  | nil => exact .nil
  | cons a actions ih =>
    cases a with
    | request r => exact List.pairwise_cons.2 ⟨fun n hn => lt_of_mem_generations hn, ih _⟩
    | _ => exact ih _

/-! ### The answers -/

/-- **A label field answers the last request.**  After any requests, cancellations, answers, times
at which the task ran and messages that are not current, waiting answers the first name that a
target of the last request gives, in the order of the targets; where none gives one, where there
was no request and where the last one was given up, it answers none.  Waiting again answers the
same, and the requests answer growing generations. -/
theorem settle_answers_last_request (source : RecordSource) (actions : List Action)
    (h : AllowsAll source {} actions) :
    let f := carryOut source {} actions
    (f.settle source).label = ((lastRequest? actions).bind fun r =>
        r.targets.findSome? fun schema => (source schema r.id).toOption) ∧
      ((f.settle source).settle source).label = (f.settle source).label ∧
      (generations source {} actions).Pairwise (· < ·) := by
  intro f
  have hf : Awaits source f (lastRequest? actions) := (Awaits.new source).carryOut h
  refine ⟨?_, ?_, generations_pairwise source {} actions⟩
  · rw [hf.label_settle]
    exact congrArg _ (funext (toOption_resolve source))
  · rw [hf.settle.label_settle, hf.label_settle]

open Session (teamsAndAccounts)

/-- A name has arrived and is not looked at before it is given up; then the same record is asked
for among queues and teams, and the old message is handed in. -/
def reasked : List Action :=
  [.request ⟨⟨1⟩, ["account"]⟩, .yield, .cancel, .request ⟨⟨1⟩, ["queue", "team", "account"]⟩,
    .accept ⟨1, ⟨1⟩, "Contoso"⟩]

/-- The team's name is the answer, again and again. -/
theorem settle_answers_last_request_of_reasked :
    let f := carryOut teamsAndAccounts {} reasked
    AllowsAll teamsAndAccounts {} reasked ∧
      (f.settle teamsAndAccounts).label = some "Sales" ∧
      ((f.settle teamsAndAccounts).settle teamsAndAccounts).label = some "Sales" ∧
      generations teamsAndAccounts {} reasked = [1, 3] := by
  intro f
  have hall : AllowsAll teamsAndAccounts {} reasked :=
    ⟨trivial, trivial, trivial, trivial, .inl (by decide), trivial⟩
  obtain ⟨hlabel, hagain, -⟩ := settle_answers_last_request teamsAndAccounts reasked hall
  have hsales : (f.settle teamsAndAccounts).label = some "Sales" := hlabel.trans (by decide)
  exact ⟨hall, hsales, hagain.trans hsales, by decide⟩

end LabelField

end QueryEditor
