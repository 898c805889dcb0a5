import Mathlib.Logic.Relation
import QueryEditor.Label.Field

/-!
# Runs of a label field

A `Session` is a label field together with what has happened to it: the lookups that were
started, the most recent request or cancellation, and the message whose label is shown.  Its
steps are those of the caller and those of the lookups in the background.  A lookup that was given
up may still have sent its message, so every lookup ever started may send one at any time, and
messages are looked at in any order, late or more than once.

## Main results

* `Session.Sound` : the invariant.  It ties the generation of every lookup to the generation of
  the field.
* `Session.settle_field` : the record kept beside the field does not change what `settle` does.
* `Session.Step.sound` : every step keeps the invariant.
* `Session.Reachable.shows_last_request` : **a label that is shown is the one of the most recent
  request**, and no label of an earlier lookup comes back.
-/

namespace QueryEditor

namespace LabelField

open ValueField (LabelRequest)

variable {source : RecordSource}

theorem mem_deliver {generation : Nat} {r : LabelRequest} {d : Delivery} :
    d ∈ deliver source generation r ↔
      d.generation = generation ∧ d.id = r.id ∧ source.resolve r = .ok d.label := by
  unfold deliver
  obtain ⟨g, i, l⟩ := d
  cases h : source.resolve r with
  | ok label => simp [eq_comm]
  | error e => simp

/-- A lookup that was started. -/
structure Lookup where
  generation : Nat
  request : LabelRequest
  deriving DecidableEq

/-- A field with what has happened to it. -/
structure Session where
  field : LabelField := {}
  /-- All lookups that were started, given up or not. -/
  lookups : List Lookup := []
  /-- The most recent of all requests and cancellations, if it is a request. -/
  last : Option LabelRequest := none
  /-- The message whose label is shown. -/
  shown : Option Delivery := none
  deriving DecidableEq

namespace Session

/-! ### Steps -/

/-- The caller gives up the current lookup. -/
def cancel (s : Session) : Session :=
  { s with field := s.field.cancel, last := none, shown := none }

/-- The caller asks for a name. -/
def request (s : Session) (r : LabelRequest) : Session where
  field := s.field.request r
  lookups := ⟨(s.field.request r).generation, r⟩ :: s.lookups
  last := some r
  shown := none

/-- The current task runs. -/
def run (source : RecordSource) (s : Session) : Session :=
  { s with field := s.field.run source }

/-- A lookup sends its message. -/
def arrive (source : RecordSource) (s : Session) (t : Lookup) : Session :=
  { s with field.inbox := s.field.inbox ++ deliver source t.generation t.request }

/-- A message is looked at. -/
def accept (s : Session) (d : Delivery) : Session :=
  { s with
    field := (s.field.accept d).2
    shown := if (s.field.accept d).1 then some d else s.shown }

/-- The caller waits for the task and looks at all messages. -/
def settle (source : RecordSource) (s : Session) : Session :=
  let s := s.run source
  s.field.inbox.foldl accept { s with field.task := none, field.inbox := [] }

/-- The caller starts to wait and gives it up; the task goes on in the background. -/
def abandon (s : Session) : Session :=
  { s with field.task := none }

/-- The steps of the caller and of the lookups.  A message that arrives while `settle` waits, or
while it goes through the inbox, might as well have arrived just before. -/
inductive Step (source : RecordSource) : Session → Session → Prop
  | cancel (s : Session) : Step source s s.cancel
  | request (s : Session) (r : LabelRequest) : Step source s (s.request r)
  | run (s : Session) : Step source s (s.run source)
  | arrive (s : Session) {t : Lookup} (ht : t ∈ s.lookups) : Step source s (s.arrive source t)
  | accept (s : Session) {t : Lookup} {d : Delivery} (ht : t ∈ s.lookups)
      (hd : d ∈ deliver source t.generation t.request) : Step source s (s.accept d)
  | settle (s : Session) : Step source s (s.settle source)
  | abandon (s : Session) : Step source s s.abandon

/-- Any number of steps. -/
def Steps (source : RecordSource) : Session → Session → Prop :=
  Relation.ReflTransGen (Step source)

/-- The sessions that begin with a new field. -/
def Reachable (source : RecordSource) (s : Session) : Prop := Steps source {} s

/-- Waiting in a session is waiting of its field. -/
theorem settle_field (s : Session) : (s.settle source).field = s.field.settle source := by
  unfold Session.settle LabelField.settle
  exact (List.foldl_hom Session.field fun _ _ => rfl).symm

/-! ### The invariant -/

/-- The message of a lookup that was started. -/
def Sent (source : RecordSource) (s : Session) (d : Delivery) : Prop :=
  ∃ t ∈ s.lookups, d ∈ deliver source t.generation t.request

/-- What holds after every step. -/
structure Sound (source : RecordSource) (s : Session) : Prop where
  /-- No lookup is of a generation to come. -/
  generation_le : ∀ t ∈ s.lookups, t.generation ≤ s.field.generation
  /-- A lookup of the current generation is that of the last request. -/
  last_eq : ∀ t ∈ s.lookups, t.generation = s.field.generation → s.last = some t.request
  /-- The field is about the last request. -/
  current_eq : s.field.current = s.last.map (·.id)
  /-- A task that waits is a lookup of the current generation. -/
  waiting : ∀ r, s.field.task = some (.waiting r) → ⟨s.field.generation, r⟩ ∈ s.lookups
  /-- What has arrived was sent. -/
  inbox_sent : ∀ d ∈ s.field.inbox, s.Sent source d
  /-- The label comes from the message that is shown. -/
  label_eq : s.field.label = s.shown.map (·.label)
  /-- That message was sent by the lookup of the current generation. -/
  shown_sent : ∀ d, s.shown = some d → s.Sent source d ∧ d.generation = s.field.generation

namespace Sound

variable {s : Session}

theorem new : Sound source {} where
  generation_le := by simp
  last_eq := by simp
  current_eq := rfl
  waiting := by simp
  inbox_sent := by simp
  label_eq := rfl
  shown_sent := by simp

theorem cancel (h : s.Sound source) : s.cancel.Sound source where
  generation_le t ht := Nat.le_succ_of_le (h.generation_le t ht)
  last_eq t ht hg := by
    have := h.generation_le t ht
    simp only [Session.cancel, LabelField.cancel] at hg
    omega
  current_eq := rfl
  waiting := by simp [Session.cancel, LabelField.cancel]
  inbox_sent := h.inbox_sent
  label_eq := rfl
  shown_sent := by simp [Session.cancel]

theorem request (h : s.Sound source) (r : LabelRequest) : (s.request r).Sound source where
  generation_le t ht := by
    obtain rfl | ht := List.mem_cons.1 ht
    · exact Nat.le_refl _
    · exact Nat.le_succ_of_le (h.generation_le t ht)
  last_eq t ht hg := by
    obtain rfl | ht := List.mem_cons.1 ht
    · rfl
    · -- an older lookup is of a smaller generation than the new one
      have := h.generation_le t ht
      simp only [Session.request, LabelField.request, LabelField.cancel] at hg
      omega
  current_eq := rfl
  waiting r' hr := by
    obtain rfl : r = r' := by simpa [Session.request, LabelField.request] using hr
    exact List.mem_cons_self
  inbox_sent d hd := by
    obtain ⟨t, ht, hd⟩ := h.inbox_sent d hd
    exact ⟨t, List.mem_cons_of_mem _ ht, hd⟩
  label_eq := rfl
  shown_sent := by simp [Session.request]

theorem arrive (h : s.Sound source) {t : Lookup} (ht : t ∈ s.lookups) :
    (s.arrive source t).Sound source :=
  { h with
    inbox_sent := by
      intro d hd
      obtain hd | hd := List.mem_append.1 hd
      · exact h.inbox_sent d hd
      · exact ⟨t, ht, hd⟩ }

/-- A field may forget its task. -/
theorem forget (h : s.Sound source) {task : Option Task}
    (htask : ∀ r, task ≠ some (.waiting r)) : Sound source { s with field.task := task } :=
  { h with waiting := fun r hr => absurd hr (htask r) }

theorem run (h : s.Sound source) : (s.run source).Sound source := by
  unfold Session.run LabelField.run
  split
  case h_1 r hr =>
    -- the task that runs is one of the lookups, so its message is one that arrives
    exact (h.arrive (h.waiting r hr)).forget (by simp)
  case h_2 => exact h

theorem accept (h : s.Sound source) {d : Delivery} (hd : s.Sent source d) :
    (s.accept d).Sound source := by
  unfold Session.accept LabelField.accept
  split
  case isTrue hc =>
    exact { h with
      label_eq := rfl
      shown_sent := by
        intro d' hd'
        obtain rfl : d = d' := by simpa using hd'
        exact ⟨hd, hc.1⟩ }
  case isFalse => exact h

theorem foldl_accept (h : s.Sound source) {ds : List Delivery}
    (hds : ∀ d ∈ ds, s.Sent source d) : (ds.foldl Session.accept s).Sound source := by
  induction ds generalizing s with
  | nil => exact h
  | cons d ds ih =>
    obtain ⟨hd, hds⟩ := List.forall_mem_cons.1 hds
    exact ih (h.accept hd) hds

theorem settle (h : s.Sound source) : (s.settle source).Sound source := by
  unfold Session.settle
  -- the messages are looked at after they have left the inbox, and they still were sent
  have hr := h.run
  have hs : Sound source { s.run source with field.task := none, field.inbox := [] } :=
    { hr with waiting := by simp, inbox_sent := by simp }
  exact hs.foldl_accept hr.inbox_sent

end Sound

theorem Step.sound {s s' : Session} (hs : Step source s s') (h : s.Sound source) :
    s'.Sound source := by
  cases hs with
  | cancel => exact h.cancel
  | request r => exact h.request r
  | run => exact h.run
  | arrive ht => exact h.arrive ht
  | accept ht hd => exact h.accept ⟨_, ht, hd⟩
  | settle => exact h.settle
  | abandon => exact h.forget (by simp)

theorem Steps.sound {s s' : Session} (hs : Steps source s s') (h : s.Sound source) :
    s'.Sound source := by
  induction hs with
  | refl => exact h
  | tail _ hst ih => exact hst.sound ih

/-! ### Generations -/

theorem foldl_accept_generation (s : Session) (ds : List Delivery) :
    (ds.foldl Session.accept s).field.generation = s.field.generation := by
  induction ds generalizing s with
  | nil => rfl
  | cons d ds ih =>
    rw [List.foldl_cons, ih]
    unfold Session.accept LabelField.accept
    split <;> rfl

theorem run_generation (s : Session) : (s.run source).field.generation = s.field.generation := by
  unfold Session.run LabelField.run
  split <;> rfl

theorem Step.generation_le {s s' : Session} (hs : Step source s s') :
    s.field.generation ≤ s'.field.generation := by
  cases hs with
  | cancel => exact Nat.le_succ _
  | request r => exact Nat.le_succ _
  | run => exact Nat.le_of_eq (run_generation s).symm
  | arrive ht => exact Nat.le_refl _
  | accept ht hd => exact Nat.le_of_eq (foldl_accept_generation s [_]).symm
  | settle =>
    unfold Session.settle
    rw [foldl_accept_generation]
    exact Nat.le_of_eq (run_generation s).symm
  | abandon => exact Nat.le_refl _

theorem Steps.generation_le {s s' : Session} (hs : Steps source s s') :
    s.field.generation ≤ s'.field.generation := by
  induction hs with
  | refl => exact Nat.le_refl _
  | tail _ hst ih => exact Nat.le_trans ih hst.generation_le

/-! ### What is shown -/

theorem Sound.shown_resolves {s : Session} (h : s.Sound source) {label : String}
    (hl : s.field.label = some label) :
    ∃ r, s.last = some r ∧ s.field.current = some r.id ∧ source.resolve r = .ok label := by
  rw [h.label_eq] at hl
  obtain ⟨d, hd, rfl⟩ := Option.map_eq_some_iff.1 hl
  obtain ⟨⟨t, ht, hm⟩, hg⟩ := h.shown_sent d hd
  obtain ⟨htg, -, hres⟩ := mem_deliver.1 hm
  have hlast : s.last = some t.request := h.last_eq t ht (htg.symm.trans hg)
  exact ⟨t.request, hlast, by rw [h.current_eq, hlast, Option.map_some], hres⟩

/-- **A label that is shown is the one of the most recent request.**  In every session, if a label
is shown, then the most recent of all requests and cancellations was a request, its identifier is
the current one, and its lookup finds this label.  After a cancellation or a new request no label
is shown, none that is shown later was sent by an earlier lookup, and every message of an earlier
lookup is refused from then on. -/
theorem Reachable.shows_last_request {s : Session} (h : Reachable source s) :
    (∀ label, s.field.label = some label →
      ∃ r, s.last = some r ∧ s.field.current = some r.id ∧ source.resolve r = .ok label) ∧
    ∀ s₁ s₂, (s₁ = s.cancel ∨ ∃ r, s₁ = s.request r) → Steps source s₁ s₂ →
      s₁.field.label = none ∧ s₂.field.label = s₂.shown.map (·.label) ∧
      ∀ t ∈ s.lookups, (∀ d, s₂.shown = some d → d.generation ≠ t.generation) ∧
        ∀ d ∈ deliver source t.generation t.request, s₂.field.accept d = (false, s₂.field) := by
  have hs : s.Sound source := h.sound .new
  refine ⟨fun label => hs.shown_resolves, fun s₁ s₂ h₁ h₂ => ?_⟩
  obtain ⟨hs₁, hnone, hgen⟩ : s₁.Sound source ∧ s₁.field.label = none ∧
      s₁.field.generation = s.field.generation + 1 := by
    obtain rfl | ⟨r, rfl⟩ := h₁
    · exact ⟨hs.cancel, rfl, rfl⟩
    · exact ⟨hs.request r, rfl, rfl⟩
  have hs₂ : s₂.Sound source := h₂.sound hs₁
  refine ⟨hnone, hs₂.label_eq, fun t ht => ?_⟩
  -- the generation only grows, so it never comes back to that of an earlier lookup
  have hlt : t.generation < s₂.field.generation := by
    have := hs.generation_le t ht
    have := h₂.generation_le
    omega
  constructor
  · intro d hd
    rw [(hs₂.shown_sent d hd).2]
    exact Nat.ne_of_gt hlt
  · intro d hd
    have hne : d.generation ≠ s₂.field.generation := by
      rw [(mem_deliver.1 hd).1]
      exact Nat.ne_of_lt hlt
    simp [LabelField.accept, hne]

/-- An account and a team that share an identifier. -/
def teamsAndAccounts : RecordSource :=
  .ofRecords [⟨"account", ⟨1⟩, "Contoso"⟩, ⟨"team", ⟨1⟩, "Sales"⟩]

/-- A name is asked for among accounts, then the same identifier among teams; the account's name
arrives all the same, and before the team's. -/
def overtaken : Session :=
  let accounts : Session := request {} ⟨⟨1⟩, ["account"]⟩
  ((accounts.request ⟨⟨1⟩, ["team"]⟩).arrive teamsAndAccounts ⟨1, ⟨⟨1⟩, ["account"]⟩⟩).settle
    teamsAndAccounts

/-- The team's name is shown, and the account's is refused for good. -/
theorem shows_last_request_of_overtaken :
    overtaken.field.label = some "Sales" ∧
    (∃ r, overtaken.last = some r ∧ overtaken.field.current = some r.id ∧
      teamsAndAccounts.resolve r = .ok "Sales") ∧
    overtaken.field.accept ⟨1, ⟨1⟩, "Contoso"⟩ = (false, overtaken.field) := by
  let s : Session := request {} ⟨⟨1⟩, ["account"]⟩
  have hs : Reachable teamsAndAccounts s := .single (.request {} _)
  have hs₂ : Steps teamsAndAccounts (s.request ⟨⟨1⟩, ["team"]⟩) overtaken :=
    .tail (.single (.arrive _ (by decide))) (.settle _)
  have hr : Reachable teamsAndAccounts overtaken :=
    (hs.tail (.request _ ⟨⟨1⟩, ["team"]⟩)).trans hs₂
  refine ⟨by decide, hr.shows_last_request.1 _ (by decide), ?_⟩
  obtain ⟨-, -, h⟩ := hs.shows_last_request.2 _ _ (.inr ⟨_, rfl⟩) hs₂
  exact (h ⟨1, ⟨⟨1⟩, ["account"]⟩⟩ (by decide)).2 _ (by decide)

end Session

end LabelField

end QueryEditor
