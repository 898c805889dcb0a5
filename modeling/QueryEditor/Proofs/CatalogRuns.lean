import Mathlib.Data.List.Nodup
import QueryEditor.Scope

/-!
# Runs of a catalog

While conditions are edited, three parties use a catalog in any order: attributes are looked up,
requests for details are handed over, and details arrive (`Catalog.Action`).  Details may arrive
unasked, more than once, and without a list of attributes, which takes the old list away.

## Main results

* `Catalog.attributes?_completeLoad` : what an arrival changes.
* `Catalog.attributesFor_cases` : all that looking up attributes can do.
* `Catalog.QueueSound` : the invariant of the queue of requests.
* `Catalog.Reachable.load_protocol` : **every lookup is served.**  The queue holds each name once
  and only while its attributes are missing; what a lookup did not find stays in the queue until
  it is handed over or arrives; what has arrived is found until it is taken away.
-/

namespace QueryEditor

namespace Catalog

variable {c : Catalog} {e : Entity} {name schema : String} {q : Query} {node : Nat}
  {scope : Option String}

/-! ### What is known of an entity -/

/-- An entity that is put in place is found by its name, and hides no other. -/
theorem find?_insert (e : Entity) (es : List Entity) (name : String) :
    (insert e es).find? (·.logicalName == name) =
      if e.logicalName = name then some e else es.find? (·.logicalName == name) := by
  induction es with
  | nil => by_cases h : e.logicalName = name <;> simp [insert, h]
  | cons f fs ih =>
    unfold insert
    split
    case isTrue => by_cases h : e.logicalName = name <;> simp [h]
    case isFalse =>
      split
      case isTrue hef => by_cases h : e.logicalName = name <;> simp [← hef, h]
      case isFalse hef =>
        by_cases hf : f.logicalName = name
        · have h : e.logicalName ≠ name := fun h => hef (h.trans hf.symm)
          simp [hf, h]
        · simp [hf, ih]

theorem attributes?_completeLoad :
    (c.completeLoad e).attributes? name =
      if e.logicalName = name then e.adoptAttributes.attributes else c.attributes? name := by
  have hname : e.adoptAttributes.logicalName = e.logicalName := rfl
  unfold attributes? entity? completeLoad
  rw [find?_insert, hname]
  split <;> rfl

theorem isSome_attributes_adoptAttributes :
    e.adoptAttributes.attributes.isSome = e.attributes.isSome := by
  unfold Entity.adoptAttributes
  exact Option.isSome_map

/-! ### Asking for details -/

theorem attributes?_request : (c.request schema).attributes? name = c.attributes? name := by
  unfold request
  split <;> rfl

theorem mem_requests_request :
    name ∈ (c.request schema).requests ↔ name ∈ c.requests ∨ name = schema := by
  unfold request
  split
  case isTrue h =>
    have h : schema ∈ c.requests := by simpa using h
    constructor
    · exact .inl
    · rintro (hn | rfl)
      · exact hn
      · exact h
  case isFalse => simp

theorem nodup_requests_request (h : c.requests.Nodup) : (c.request schema).requests.Nodup := by
  unfold request
  split
  case isTrue => exact h
  case isFalse hnew =>
    have hnew : schema ∉ c.requests := by simpa using hnew
    simpa using h.concat hnew

theorem mem_requests_completeLoad :
    name ∈ (c.completeLoad e).requests ↔ name ∈ c.requests ∧ name ≠ e.logicalName := by
  simp [completeLoad]

/-- **All that looking up attributes can do**: it finds a list and leaves the catalog alone, or
the attributes of the entity that the condition is about are missing and are asked for. -/
theorem attributesFor_cases (c : Catalog) (q : Query) (node : Nat) (scope : Option String) :
    (∃ attributes, c.attributesFor q node scope = (some attributes, c)) ∨
      ∃ schema, q.schemaOf? node scope = some schema ∧ c.attributes? schema = none ∧
        c.attributesFor q node scope = (none, c.request schema) := by
  unfold attributesFor
  cases hs : q.schemaOf? node scope with
  | none => exact .inl ⟨[], rfl⟩
  | some schema =>
    cases ha : c.attributes? schema with
    | none => exact .inr ⟨schema, rfl, ha, by simp [ha]⟩
    | some attributes => exact .inl ⟨attributes, by simp [ha]⟩

/-- Looking up changes nothing that is known. -/
theorem attributes?_attributesFor :
    (c.attributesFor q node scope).2.attributes? name = c.attributes? name := by
  obtain ⟨_, h⟩ | ⟨schema, -, -, h⟩ := attributesFor_cases c q node scope
  · rw [h]
  · rw [h]
    exact attributes?_request

/-! ### Runs -/

/-- What happens to a catalog. -/
inductive Action
  /-- The attributes for a condition are looked up. -/
  | lookUp (q : Query) (node : Nat) (scope : Option String)
  /-- The details of an entity arrive. -/
  | arrive (e : Entity)
  /-- The requests are handed over. -/
  | take

/-- The catalog after an action. -/
def act (c : Catalog) : Action → Catalog
  | .lookUp q node scope => (c.attributesFor q node scope).2
  | .arrive e => c.completeLoad e
  | .take => c.takeRequests.2

/-- The catalog after a number of actions. -/
def run (c : Catalog) (actions : List Action) : Catalog := actions.foldl act c

/-- The catalogs that can arise. -/
inductive Reachable : Catalog → Prop
  /-- The catalog before a connection. -/
  | unavailable : Reachable unavailable
  /-- The catalog of a list of entities. -/
  | ofEntities {es : List Entity} {c : Catalog} : ofEntities es = .ok c → Reachable c
  /-- A catalog that something happened to. -/
  | act {c : Catalog} (a : Action) : Reachable c → Reachable (c.act a)

/-- The action ends the wait for the details of an entity: they arrive, or the request for them
is handed over. -/
def Action.EndsWait (schema : String) : Action → Prop
  | lookUp .. => False
  | arrive e => e.logicalName = schema
  | take => True

/-- The action takes the attributes of an entity away. -/
def Action.Unloads (schema : String) : Action → Prop
  | arrive e => e.logicalName = schema ∧ e.attributes = none
  | _ => False

theorem Reachable.run (h : c.Reachable) (actions : List Action) : (c.run actions).Reachable := by
  induction actions generalizing c with
  | nil => exact h
  | cons a actions ih => exact ih (h.act a)

/-! ### The queue of requests -/

/-- The queue holds no name twice, and only names whose attributes are missing. -/
structure QueueSound (c : Catalog) : Prop where
  /-- Names are not repeated. -/
  nodup : c.requests.Nodup
  /-- What is there is not asked for. -/
  missing : ∀ name ∈ c.requests, c.attributes? name = none

namespace QueueSound

theorem of_requests_eq_nil (h : c.requests = []) : c.QueueSound := by
  constructor <;> simp [h]

theorem request (h : c.QueueSound) (hs : c.attributes? schema = none) :
    (c.request schema).QueueSound where
  nodup := nodup_requests_request h.nodup
  missing name hn := by
    rw [attributes?_request]
    obtain hn | rfl := mem_requests_request.1 hn
    · exact h.missing name hn
    · exact hs

theorem attributesFor (h : c.QueueSound) (q : Query) (node : Nat) (scope : Option String) :
    (c.attributesFor q node scope).2.QueueSound := by
  obtain ⟨_, hready⟩ | ⟨schema, -, hs, hmissing⟩ := attributesFor_cases c q node scope
  · rw [hready]
    exact h
  · rw [hmissing]
    exact h.request hs

theorem completeLoad (h : c.QueueSound) (e : Entity) : (c.completeLoad e).QueueSound where
  nodup := h.nodup.filter _
  missing name hn := by
    obtain ⟨hn, hne⟩ := mem_requests_completeLoad.1 hn
    rw [attributes?_completeLoad, if_neg hne.symm]
    exact h.missing name hn

theorem act (h : c.QueueSound) (a : Action) : (c.act a).QueueSound := by
  cases a with
  | lookUp q node scope => exact h.attributesFor q node scope
  | arrive e => exact h.completeLoad e
  | take => exact of_requests_eq_nil rfl

end QueueSound

theorem Reachable.queueSound (h : c.Reachable) : c.QueueSound := by
  induction h with
  | unavailable => exact .of_requests_eq_nil rfl
  | @ofEntities es c h =>
    unfold Catalog.ofEntities at h
    cases hi : insertAll [] es with
    | error _ => rw [hi] at h; cases h
    | ok _ =>
      rw [hi] at h
      cases h
      exact .of_requests_eq_nil rfl
  | act a _ ih => exact ih.act a

/-! ### Waiting and being served -/

theorem mem_requests_act {a : Action} (ha : ¬a.EndsWait schema) (h : schema ∈ c.requests) :
    schema ∈ (c.act a).requests := by
  cases a with
  | lookUp q node scope =>
    obtain ⟨_, hready⟩ | ⟨other, -, -, hmissing⟩ := attributesFor_cases c q node scope
    · rw [act, hready]
      exact h
    · rw [act, hmissing]
      exact mem_requests_request.2 (.inl h)
  | arrive e => exact mem_requests_completeLoad.2 ⟨h, fun he => ha he.symm⟩
  | take => exact absurd trivial ha

/-- A request stays in the queue as long as nothing ends the wait. -/
theorem mem_requests_run {actions : List Action} (ha : ∀ a ∈ actions, ¬a.EndsWait schema)
    (h : schema ∈ c.requests) : schema ∈ (c.run actions).requests := by
  induction actions generalizing c with
  | nil => exact h
  | cons a actions ih =>
    obtain ⟨ha, hrest⟩ := List.forall_mem_cons.1 ha
    exact ih hrest (mem_requests_act ha h)

theorem isSome_attributes?_act {a : Action} (ha : ¬a.Unloads schema)
    (h : (c.attributes? schema).isSome) : ((c.act a).attributes? schema).isSome := by
  cases a with
  | lookUp q node scope => rwa [act, attributes?_attributesFor]
  | arrive e =>
    rw [act, attributes?_completeLoad]
    split
    case isTrue he =>
      rw [isSome_attributes_adoptAttributes]
      exact Option.isSome_iff_ne_none.2 fun hnone => ha ⟨he, hnone⟩
    case isFalse => exact h
  | take => exact h

/-- Attributes that have arrived stay as long as nothing takes them away. -/
theorem isSome_attributes?_run {actions : List Action} (ha : ∀ a ∈ actions, ¬a.Unloads schema)
    (h : (c.attributes? schema).isSome) : ((c.run actions).attributes? schema).isSome := by
  induction actions generalizing c with
  | nil => exact h
  | cons a actions ih =>
    obtain ⟨ha, hrest⟩ := List.forall_mem_cons.1 ha
    exact ih hrest (isSome_attributes?_act ha h)

/-- **Every lookup is served.**  In every catalog that can arise the queue of requests holds no
name twice, and only names whose attributes are missing.  A lookup that finds attributes leaves
the queue alone.  One that finds none leaves the entity in the queue, once, and there it stays
whatever else happens until the requests are handed over or its details arrive.  After details
with a list of attributes have arrived, every lookup for that entity finds attributes until
details without a list arrive. -/
theorem Reachable.load_protocol (h : c.Reachable) :
    c.requests.Nodup ∧ (∀ name ∈ c.requests, c.attributes? name = none) ∧
      (∀ q node scope, (c.attributesFor q node scope).1.isSome →
        (c.attributesFor q node scope).2.requests = c.requests) ∧
      (∀ q node scope, (c.attributesFor q node scope).1 = none →
        ∃ schema, q.schemaOf? node scope = some schema ∧
          ∀ actions, (∀ a ∈ actions, ¬Action.EndsWait schema a) →
            (((c.attributesFor q node scope).2.run actions).requests.count schema = 1)) ∧
      ∀ e : Entity, e.attributes.isSome → ∀ actions,
        (∀ a ∈ actions, ¬Action.Unloads e.logicalName a) →
          ∀ q node scope, Query.schemaOf? q node scope = some e.logicalName →
            (((c.completeLoad e).run actions).attributesFor q node scope).1.isSome := by
  refine ⟨h.queueSound.nodup, h.queueSound.missing, ?_, ?_, ?_⟩
  case refine_1 =>
    intro q node scope hsome
    obtain ⟨_, hready⟩ | ⟨schema, -, -, hmissing⟩ := attributesFor_cases c q node scope
    · rw [hready]
    · simp [hmissing] at hsome
  case refine_2 =>
    intro q node scope hnone
    obtain ⟨_, hready⟩ | ⟨schema, hschema, -, hmissing⟩ := attributesFor_cases c q node scope
    · simp [hready] at hnone
    refine ⟨schema, hschema, fun actions ha => ?_⟩
    have hmem : schema ∈ (c.attributesFor q node scope).2.requests := by
      rw [hmissing]
      exact mem_requests_request.2 (.inr rfl)
    have hreach : ((c.attributesFor q node scope).2.run actions).Reachable :=
      (h.act (.lookUp q node scope)).run actions
    exact List.count_eq_one_of_mem hreach.queueSound.nodup (mem_requests_run ha hmem)
  case refine_3 =>
    intro e he actions ha q node scope hschema
    have harrived : ((c.completeLoad e).attributes? e.logicalName).isSome := by
      rw [attributes?_completeLoad, if_pos rfl, isSome_attributes_adoptAttributes]
      exact he
    have hstays := isSome_attributes?_run ha harrived
    obtain ⟨_, hready⟩ | ⟨schema, hschema', hs, -⟩ :=
      attributesFor_cases ((c.completeLoad e).run actions) q node scope
    · rw [hready]
      rfl
    · obtain rfl : schema = e.logicalName := Option.some.inj (hschema'.symm.trans hschema)
      rw [hs] at hstays
      cases hstays

/-- A query on accounts with contacts linked to it, and a filter at node 3. -/
def accountsAndContacts : Query :=
  ((Query.ofEntity "account").add Query.root (.link ⟨"contact", some "c"⟩)).add Query.root .filter

/-- Nothing is known yet; contacts are asked for, the request is handed over, and accounts and
contacts are asked for before anything has arrived. -/
def early : Catalog := unavailable.run
  [ .lookUp accountsAndContacts 3 (some " c "), .take, .lookUp accountsAndContacts 3 none,
    .lookUp accountsAndContacts 3 (some "c") ]

/-- The second request for contacts waits while accounts arrive without their attributes and are
asked for again, and contacts are found once they have arrived, even when accounts are lost. -/
theorem load_protocol_of_early :
    let accounts : Entity := { logicalName := "account" }
    let contacts : Entity := { logicalName := "contact", attributes := some [] }
    let waiting : List Action := [.arrive accounts, .lookUp accountsAndContacts 3 none]
    let later : List Action := [.take, .arrive contacts, .arrive accounts]
    early.Reachable ∧ early.requests = ["account", "contact"] ∧ early.requests.Nodup ∧
      (∀ name ∈ early.requests, early.attributes? name = none) ∧
      (early.attributesFor accountsAndContacts 0 none).2.requests = early.requests ∧
      ((early.attributesFor accountsAndContacts 3 (some "c")).2.run waiting).requests.count
        "contact" = 1 ∧
      (((early.completeLoad contacts).run later).attributesFor
        accountsAndContacts 3 (some "c")).1.isSome := by
  intro accounts contacts waiting later
  have h : early.Reachable := Reachable.unavailable.run _
  obtain ⟨hnodup, hmissing, hready, hwaits, hserved⟩ := h.load_protocol
  have hcontact : accountsAndContacts.schemaOf? 3 (some "c") = some "contact" := by
    decide +kernel
  refine ⟨h, by decide +kernel, hnodup, hmissing, hready _ _ _ (by decide +kernel), ?_, ?_⟩
  · obtain ⟨schema, hschema, hcount⟩ := hwaits accountsAndContacts 3 (some "c") (by decide +kernel)
    obtain rfl : schema = "contact" := Option.some.inj (hschema.symm.trans hcontact)
    exact hcount waiting (by simp [waiting, Action.EndsWait, accounts])
  · exact hserved contacts rfl later (by simp [later, Action.Unloads, accounts, contacts])
      accountsAndContacts 3 (some "c") hcontact

end Catalog

end QueryEditor
