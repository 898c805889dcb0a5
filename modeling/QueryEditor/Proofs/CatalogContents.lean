import Mathlib.Data.List.Sort
import QueryEditor.Proofs.CatalogOrder

/-!
# What a catalog knows

A catalog is told of entities: those that are listed at the start, and those that arrive later.
What it knows of an entity is what it was told last, whatever else it was told and in whatever
order (`Catalog.Knows`).

## Main results

* `Catalog.ofEntities_eq_error_iff`, `Catalog.exists_ofEntities_iff` : which lists of entities make
  no catalog, and what the error names.
* `Catalog.Sorted.ext` : what is found in it makes a catalog.
* `Catalog.Knows.act`, `Catalog.History.knows` : an action keeps what the catalog knows up to date,
  and so does every history.
* `Catalog.History.answers_last` : **every answer follows from what the catalog was told last of
  each entity.**
* `Catalog.History.names_differ` : before a connection there is no list of entities at all.
-/

namespace QueryEditor

namespace Catalog

variable {c c' : Catalog} {e : Entity} {es es' known told : List Entity} {name : String}
  {names seen : List String}

/-! ### Lists that make no catalog -/

/-- The name is the first in the list that was seen before. -/
def IsFirstSeen (seen names : List String) (name : String) : Prop :=
  ∃ before after, names = before ++ name :: after ∧ before.Nodup ∧ (∀ b ∈ before, b ∉ seen) ∧
    (name ∈ seen ∨ name ∈ before)

theorem isFirstSeen_cons_of_mem {first : String} (h : first ∈ seen) :
    IsFirstSeen seen (first :: names) name ↔ name = first := by
  constructor
  · rintro ⟨before, after, hsplit, -, hnew, -⟩
    cases before with
    | nil => exact (List.cons.inj hsplit).1.symm
    | cons b before =>
      obtain ⟨rfl, -⟩ := List.cons.inj hsplit
      exact absurd h (hnew first List.mem_cons_self)
  · rintro rfl
    exact ⟨[], names, rfl, List.nodup_nil, by simp, .inl h⟩

theorem isFirstSeen_cons_of_not_mem {first : String} {seen' : List String} (h : first ∉ seen)
    (hseen : ∀ other, other ∈ seen' ↔ other = first ∨ other ∈ seen) :
    IsFirstSeen seen (first :: names) name ↔ IsFirstSeen seen' names name := by
  constructor
  · rintro ⟨before, after, hsplit, hnodup, hnew, hname⟩
    cases before with
    | nil =>
      obtain ⟨rfl, -⟩ := List.cons.inj hsplit
      exact absurd hname (by simpa using h)
    | cons b before =>
      obtain ⟨rfl, rfl⟩ := List.cons.inj hsplit
      obtain ⟨hfirst, hbefore⟩ := List.nodup_cons.1 hnodup
      refine ⟨before, after, rfl, hbefore, fun b hb => ?_, ?_⟩
      · rw [hseen, not_or]
        exact ⟨fun heq => hfirst (heq ▸ hb), hnew b (List.mem_cons_of_mem first hb)⟩
      · rw [hseen]
        simp only [List.mem_cons] at hname
        tauto
  · rintro ⟨before, after, rfl, hnodup, hnew, hname⟩
    refine ⟨first :: before, after, rfl, List.nodup_cons.2 ⟨fun hmem => ?_, hnodup⟩, ?_, ?_⟩
    · exact hnew first hmem ((hseen first).2 (.inl rfl))
    · refine List.forall_mem_cons.2 ⟨h, fun b hb hmem => ?_⟩
      exact hnew b hb ((hseen b).2 (.inr hmem))
    · rw [hseen] at hname
      simp only [List.mem_cons]
      tauto

theorem mem_map_insert :
    name ∈ (insert e es).map (·.logicalName) ↔
      name = e.logicalName ∨ name ∈ es.map (·.logicalName) := by
  have hfind (es : List Entity) : name ∈ es.map (·.logicalName) ↔
      (es.find? (·.logicalName == name)).isSome = true := by simp
  rw [hfind, hfind, find?_insert]
  by_cases h : e.logicalName = name
  · simp [h]
  · simp [h, Ne.symm h]

theorem any_eq_true_iff :
    known.any (·.logicalName == name) = true ↔ name ∈ known.map (·.logicalName) := by
  simp

theorem insertAll_eq_error_iff {error : CatalogError} :
    insertAll known es = .error error ↔
      ∃ name, error = .duplicateEntity name ∧
        IsFirstSeen (known.map (·.logicalName)) (es.map (·.logicalName)) name := by
  induction es generalizing known with
  | nil => simp [insertAll, IsFirstSeen]
  | cons e es ih =>
    unfold insertAll
    rw [List.map_cons]
    by_cases he : e.logicalName ∈ known.map (·.logicalName)
    · simp only [if_pos (any_eq_true_iff.2 he), isFirstSeen_cons_of_mem he, exists_eq_right,
        Except.error.injEq]
      exact eq_comm
    · have hseen (name : String) : name ∈ (insert e.adoptAttributes known).map (·.logicalName) ↔
          name = e.logicalName ∨ name ∈ known.map (·.logicalName) := mem_map_insert
      simp only [if_neg (mt any_eq_true_iff.1 he), ih, isFirstSeen_cons_of_not_mem he hseen]

theorem exists_insertAll_iff :
    (∃ all, insertAll known es = .ok all) ↔
      (es.map (·.logicalName)).Nodup ∧
        ∀ name ∈ es.map (·.logicalName), name ∉ known.map (·.logicalName) := by
  induction es generalizing known with
  | nil => simp [insertAll]
  | cons e es ih =>
    unfold insertAll
    by_cases he : e.logicalName ∈ known.map (·.logicalName)
    · simp only [if_pos (any_eq_true_iff.2 he), reduceCtorEq, exists_false, false_iff]
      exact fun h => h.2 e.logicalName List.mem_cons_self he
    · rw [if_neg (mt any_eq_true_iff.1 he), ih, List.map_cons, List.nodup_cons,
        List.forall_mem_cons]
      have hname : e.adoptAttributes.logicalName = e.logicalName := rfl
      simp only [mem_map_insert, hname, not_or]
      constructor
      · rintro ⟨hnodup, hnew⟩
        exact ⟨⟨fun hmem => (hnew _ hmem).1 rfl, hnodup⟩, he, fun name hmem => (hnew name hmem).2⟩
      · rintro ⟨⟨hfirst, hnodup⟩, -, hnew⟩
        exact ⟨hnodup, fun name hmem => ⟨fun heq => hfirst (heq ▸ hmem), hnew name hmem⟩⟩

/-- **What the error names**: the first name in the list that comes a second time. -/
theorem ofEntities_eq_error_iff {error : CatalogError} :
    ofEntities es = .error error ↔
      ∃ name, error = .duplicateEntity name ∧ ∃ before after,
        es.map (·.logicalName) = before ++ name :: after ∧ before.Nodup ∧ name ∈ before := by
  have hmap : ofEntities es = .error error ↔ insertAll [] es = .error error := by
    unfold ofEntities
    cases insertAll [] es <;> simp [Except.map]
  rw [hmap, insertAll_eq_error_iff]
  simp [IsFirstSeen]

/-- **Which lists make a catalog**: those in which no two entities share a name. -/
theorem exists_ofEntities_iff :
    (∃ c, ofEntities es = .ok c) ↔ (es.map (·.logicalName)).Nodup := by
  have hmap : (∃ c, ofEntities es = .ok c) ↔ ∃ all, insertAll [] es = .ok all := by
    unfold ofEntities
    cases insertAll [] es <;> simp [Except.map]
  rw [hmap, exists_insertAll_iff]
  simp

/-! ### A catalog and what is found in it -/

/-- In a catalog every entity is found by its name. -/
theorem Sorted.find?_eq_some_iff (h : Sorted es) :
    es.find? (·.logicalName == name) = some e ↔ e ∈ es ∧ e.logicalName = name := by
  constructor
  · intro hfind
    exact ⟨List.mem_of_find?_eq_some hfind, by simpa using List.find?_some hfind⟩
  · rintro ⟨hmem, rfl⟩
    obtain ⟨other, hfind⟩ : ∃ other, es.find? (·.logicalName == e.logicalName) = some other :=
      Option.isSome_iff_exists.1 (List.find?_isSome.2 ⟨e, hmem, by simp⟩)
    have hname : other.logicalName = e.logicalName := by simpa using List.find?_some hfind
    have hnodup : (es.map (·.logicalName)).Nodup := List.pairwise_map.2 (h.imp fun hlt => hlt.ne)
    rw [hfind, List.inj_on_of_nodup_map hnodup (List.mem_of_find?_eq_some hfind) hmem hname]

/-- **What is found in it makes a catalog.** -/
theorem Sorted.ext (h : Sorted es) (h' : Sorted es')
    (hfind : ∀ name, es.find? (·.logicalName == name) = es'.find? (·.logicalName == name)) :
    es = es' := by
  have hmem (e : Entity) : e ∈ es ↔ e ∈ es' := by
    have hleft : es'.find? (·.logicalName == e.logicalName) = some e ↔
        e ∈ es ∧ e.logicalName = e.logicalName := hfind e.logicalName ▸ h.find?_eq_some_iff
    rw [h'.find?_eq_some_iff] at hleft
    simpa using hleft.symm
  have hperm : es.Perm es' :=
    (List.perm_ext_iff_of_nodup (h.imp fun hlt heq => hlt.ne (congrArg _ heq))
      (h'.imp fun hlt heq => hlt.ne (congrArg _ heq))).2 hmem
  exact hperm.eq_of_pairwise (fun _ _ _ _ hlt hgt => absurd hlt (lt_asymm hgt)) h h'

/-! ### Being told of entities -/

/-- What a list of entities says last under a name. -/
def last? (es : List Entity) (name : String) : Option Entity :=
  es.reverse.find? (·.logicalName == name)

theorem last?_concat (es : List Entity) (e : Entity) (name : String) :
    last? (es ++ [e]) name = if e.logicalName = name then some e else last? es name := by
  by_cases h : e.logicalName = name <;> simp [last?, h]

theorem last?_isSome_iff :
    (last? es name).isSome = true ↔ name ∈ es.map (·.logicalName) := by
  simp [last?]

theorem logicalName_of_last? (h : last? es name = some e) : e.logicalName = name := by
  simpa using List.find?_some h

/-- The entities of a catalog are what it was told last of each, in the order of their names. -/
structure Knows (told known : List Entity) : Prop where
  /-- The names are strictly increasing. -/
  sorted : Sorted known
  /-- An entity is what was said last of it, the owner of its attributes. -/
  last : ∀ name, known.find? (·.logicalName == name) =
    (last? told name).map Entity.adoptAttributes

namespace Knows

theorem nil : Knows [] [] := ⟨List.Pairwise.nil, fun _ => rfl⟩

theorem insert (h : Knows told known) (e : Entity) :
    Knows (told ++ [e]) (insert e.adoptAttributes known) where
  sorted := h.sorted.insert _
  last name := by
    have hname : e.adoptAttributes.logicalName = e.logicalName := rfl
    rw [find?_insert, last?_concat, hname]
    split
    · rfl
    · exact h.last name

theorem insertAll {all : List Entity} (h : Knows told known)
    (hall : insertAll known es = .ok all) : Knows (told ++ es) all := by
  induction es generalizing told known with
  | nil =>
    cases hall
    rwa [List.append_nil]
  | cons e es ih =>
    unfold Catalog.insertAll at hall
    split at hall
    · cases hall
    · rw [List.append_cons]
      exact ih (h.insert e) hall

end Knows

/-! ### Histories -/

/-- The entity whose details arrive. -/
def Action.arrival? : Action → Option Entity
  | arrive e => some e
  | _ => none

theorem entities_request : (c.request name).entities = c.entities := by
  unfold request
  split <;> rfl

theorem isListed_request : (c.request name).isListed = c.isListed := by
  unfold request
  split <;> rfl

/-- **An action keeps what the catalog knows up to date.** -/
theorem Knows.act (h : Knows told c.entities) (a : Action) :
    Knows (told ++ a.arrival?.toList) (c.act a).entities := by
  cases a with
  | lookUp q node scope =>
    have hsame : (c.attributesFor q node scope).2.entities = c.entities := by
      obtain ⟨_, hready⟩ | ⟨schema, -, -, hmissing⟩ := attributesFor_cases c q node scope
      · rw [hready]
      · rw [hmissing, entities_request]
    change Knows (told ++ []) (c.attributesFor q node scope).2.entities
    rwa [hsame, List.append_nil]
  | arrive e => exact h.insert e
  | take =>
    change Knows (told ++ []) c.entities
    rwa [List.append_nil]

theorem isListed_act (a : Action) : (c.act a).isListed = (c.isListed || a.arrival?.isSome) := by
  cases a with
  | lookUp q node scope =>
    change (c.attributesFor q node scope).2.isListed = (c.isListed || false)
    rw [Bool.or_false]
    obtain ⟨_, hready⟩ | ⟨schema, -, -, hmissing⟩ := attributesFor_cases c q node scope
    · rw [hready]
    · rw [hmissing, isListed_request]
  | arrive e => exact (Bool.or_true _).symm
  | take => exact (Bool.or_false _).symm

/-- The entities that arrive. -/
def arrivals (actions : List Action) : List Entity := actions.filterMap Action.arrival?

theorem arrivals_cons (a : Action) (actions : List Action) :
    arrivals (a :: actions) = a.arrival?.toList ++ arrivals actions := by
  unfold arrivals
  cases h : a.arrival? <;> simp [h]

theorem Knows.run (h : Knows told c.entities) (actions : List Action) :
    Knows (told ++ arrivals actions) (c.run actions).entities := by
  induction actions generalizing told c with
  | nil =>
    change Knows (told ++ []) c.entities
    rwa [List.append_nil]
  | cons a actions ih =>
    rw [arrivals_cons, ← List.append_assoc]
    exact ih (h.act a)

theorem isListed_run (actions : List Action) :
    (c.run actions).isListed = true ↔ c.isListed = true ∨ arrivals actions ≠ [] := by
  induction actions generalizing c with
  | nil => simp [run, arrivals]
  | cons a actions ih =>
    change ((c.act a).run actions).isListed = true ↔ _
    rw [ih, isListed_act, arrivals_cons]
    cases a.arrival? <;> simp

/-- How a catalog came about. -/
structure History where
  /-- The entities that were listed at the start; `none` before a connection. -/
  listed : Option (List Entity)
  /-- What happened since. -/
  actions : List Action

namespace History

/-- The catalog at the start. -/
def start (h : History) : Except CatalogError Catalog :=
  match h.listed with
  | none => .ok unavailable
  | some es => ofEntities es

/-- The catalog that came about. -/
def catalog (h : History) : Except CatalogError Catalog := h.start.map (·.run h.actions)

/-- What the catalog was told, in this order. -/
def supplied (h : History) : List Entity := h.listed.getD [] ++ arrivals h.actions

theorem catalog_eq_error_iff {h : History} {error : CatalogError} :
    h.catalog = .error error ↔ ∃ es, h.listed = some es ∧ ofEntities es = .error error := by
  unfold catalog start
  cases h.listed with
  | none => simp [Except.map]
  | some es => cases hes : ofEntities es <;> simp [Except.map, hes]

theorem exists_of_catalog {h : History} (hc : h.catalog = .ok c) :
    ∃ first, h.start = .ok first ∧ c = first.run h.actions := by
  unfold catalog at hc
  cases hs : h.start with
  | error _ => rw [hs] at hc; cases hc
  | ok first =>
    rw [hs] at hc
    exact ⟨first, rfl, (Except.ok.inj hc).symm⟩

theorem knows_start {h : History} (hc : h.start = .ok c) :
    Knows (h.listed.getD []) c.entities ∧ c.isListed = h.listed.isSome := by
  unfold start at hc
  split at hc
  case h_1 hlisted =>
    cases hc
    rw [hlisted]
    exact ⟨.nil, rfl⟩
  case h_2 es hlisted =>
    unfold ofEntities at hc
    cases hall : Catalog.insertAll [] es with
    | error _ => rw [hall] at hc; cases hc
    | ok all =>
      rw [hall] at hc
      cases hc
      rw [hlisted]
      exact ⟨Knows.nil.insertAll hall, rfl⟩

/-- **What a catalog knows after any history.** -/
theorem knows {h : History} (hc : h.catalog = .ok c) : Knows h.supplied c.entities := by
  obtain ⟨first, hstart, rfl⟩ := exists_of_catalog hc
  exact (knows_start hstart).1.run h.actions

theorem isListed_iff {h : History} (hc : h.catalog = .ok c) :
    c.isListed = false ↔ h.listed = none ∧ h.supplied = [] := by
  obtain ⟨first, hstart, rfl⟩ := exists_of_catalog hc
  rw [← Bool.not_eq_true, isListed_run, (knows_start hstart).2, supplied]
  cases h.listed <;> simp

end History

/-! ### Answers -/

/-- What a catalog answers that was told of these entities. -/
structure Answers (told : List Entity) (c : Catalog) : Prop where
  /-- An entity is what was said last of it, and owns the attributes without an owner. -/
  entity : ∀ name, c.entity? name = (last? told name).map fun e =>
    { e with attributes := e.attributes.map fun as => as.map fun a =>
        if a.entityName = "" then { a with entityName := name } else a }
  /-- Attributes are there where they were said last. -/
  attributes : ∀ name, (c.attributes? name).isSome = (last? told name).any (·.attributes.isSome)
  /-- The list of names, where there is one, is that of all entities, in strict order. -/
  names : ∀ names, c.names? = some names →
    names.Pairwise (· < ·) ∧ ∀ name, name ∈ names ↔ name ∈ told.map (·.logicalName)
  /-- An object type code selects the entity with the smallest name of those that have it. -/
  code : ∀ code e, c.entityOfCode? code = some e ↔
    c.entity? e.logicalName = some e ∧ e.objectTypeCode = some code ∧
      ∀ other, c.entity? other.logicalName = some other → other.objectTypeCode = some code →
        e.logicalName ≤ other.logicalName
  /-- It selects none where none has it. -/
  code_eq_none : ∀ code, c.entityOfCode? code = none ↔
    ∀ name e, c.entity? name = some e → e.objectTypeCode ≠ some code

/-- Two catalogs answer alike. -/
structure Alike (c c' : Catalog) : Prop where
  entity : ∀ name, c.entity? name = c'.entity? name
  attributes : ∀ name, c.attributes? name = c'.attributes? name
  /-- Where both have a list of names, it is the same. -/
  names : ∀ names names', c.names? = some names → c'.names? = some names' → names = names'
  code : ∀ code, c.entityOfCode? code = c'.entityOfCode? code

theorem names?_eq_some_iff :
    c.names? = some names ↔ c.isListed = true ∧ c.entities.map (·.logicalName) = names := by
  unfold names?
  cases c.isListed <;> simp

theorem Knows.answers (h : Knows told c.entities) : Answers told c where
  entity name := by
    rw [entity?, h.last]
    refine Option.map_congr fun e he => ?_
    rw [← logicalName_of_last? he]
    rfl
  attributes name := by
    rw [attributes?, entity?, h.last]
    cases last? told name with
    | none => rfl
    | some e => exact isSome_attributes_adoptAttributes
  names names hnames := by
    obtain ⟨-, rfl⟩ := names?_eq_some_iff.1 hnames
    refine ⟨List.pairwise_map.2 h.sorted, fun name => ?_⟩
    have hfind : name ∈ c.entities.map (·.logicalName) ↔
        (c.entities.find? (·.logicalName == name)).isSome = true := by simp
    rw [hfind, h.last, Option.isSome_map, last?_isSome_iff]
  code code e := by
    rw [h.sorted.entityOfCode?_eq_some_iff]
    simp only [entity?, h.sorted.find?_eq_some_iff, and_true]
  code_eq_none code := by
    rw [entityOfCode?, List.find?_eq_none]
    simp only [entity?, h.sorted.find?_eq_some_iff, beq_iff_eq]
    exact ⟨fun hnone name e he => hnone e he.1, fun hnone e he => hnone _ e ⟨he, rfl⟩⟩

/-- Catalogs that were told the same last of each entity have the same entities. -/
theorem Knows.entities_eq {told' : List Entity} (h : Knows told c.entities)
    (h' : Knows told' c'.entities) (hlast : ∀ name, last? told name = last? told' name) :
    c.entities = c'.entities :=
  h.sorted.ext h'.sorted fun name => by rw [h.last, h'.last, hlast]

theorem alike_of_entities_eq (h : c.entities = c'.entities) : Alike c c' where
  entity name := by rw [entity?, entity?, h]
  attributes name := by rw [attributes?, attributes?, entity?, entity?, h]
  names names names' hnames hnames' := by
    rw [← (names?_eq_some_iff.1 hnames).2, ← (names?_eq_some_iff.1 hnames').2, h]
  code code := by rw [entityOfCode?, entityOfCode?, h]

namespace History

/-- **Every answer of a catalog follows from what it was told last of each entity.**  A list of
entities makes no catalog exactly when two of them share a name, and the error names the first one
that comes a second time.  Otherwise, whatever happens since, what is known of an entity is what was
said last of it, and catalogs that were told the same last of each entity answer alike.  Only a
catalog that has been told nothing since before the connection has no list of names. -/
theorem answers_last (h : History) :
    ((∃ c, h.catalog = .ok c) ↔ ∀ es, h.listed = some es → (es.map (·.logicalName)).Nodup) ∧
      (∀ error, h.catalog = .error error ↔ ∃ es name before after, h.listed = some es ∧
        error = .duplicateEntity name ∧ es.map (·.logicalName) = before ++ name :: after ∧
          before.Nodup ∧ name ∈ before) ∧
      ∀ c, h.catalog = .ok c → Answers h.supplied c ∧
        (c.names? = none ↔ h.listed = none ∧ h.supplied = []) ∧
        ∀ h' c', History.catalog h' = .ok c' →
          (∀ name, last? h.supplied name = last? h'.supplied name) → Alike c c' := by
  refine ⟨?_, fun error => ?_, fun c hc => ⟨(knows hc).answers, ?_, fun h' c' hc' hlast => ?_⟩⟩
  case refine_1 =>
    unfold catalog start
    cases h.listed with
    | none => exact ⟨fun _ es hes => (nomatch hes), fun _ => ⟨_, rfl⟩⟩
    | some es =>
      have hmap : (∃ c, (ofEntities es).map (·.run h.actions) = .ok c) ↔
          ∃ c, ofEntities es = .ok c := by
        cases ofEntities es <;> simp [Except.map]
      rw [hmap, exists_ofEntities_iff]
      simp
  case refine_2 =>
    simp only [catalog_eq_error_iff, ofEntities_eq_error_iff]
    constructor
    · rintro ⟨es, hes, name, hname, before, after, hsplit⟩
      exact ⟨es, name, before, after, hes, hname, hsplit⟩
    · rintro ⟨es, name, before, after, hes, hname, hsplit⟩
      exact ⟨es, hes, name, hname, before, after, hsplit⟩
  case refine_3 =>
    rw [← isListed_iff hc, names?]
    cases c.isListed <;> simp
  case refine_4 => exact alike_of_entities_eq ((knows hc).entities_eq (knows hc') hlast)

/-- Accounts are listed and then arrive with attributes, contacts arrive twice; elsewhere nothing
was listed, and all arrives the other way round. -/
theorem answers_last_of_reordered :
    let accounts : Entity := { logicalName := "account", objectTypeCode := some 1 }
    let detailed : Entity := { accounts with
      attributes := some [{ logicalName := "name", type := .string }] }
    let contacts : Entity := { logicalName := "contact", objectTypeCode := some 1 }
    let known : History := ⟨some [accounts], [.arrive contacts, .take, .arrive detailed]⟩
    let other : History := ⟨none, [.arrive accounts, .arrive detailed, .arrive contacts]⟩
    ∃ c c', known.catalog = .ok c ∧ other.catalog = .ok c' ∧
      (∀ name, last? known.supplied name = last? other.supplied name) ∧
      c.attributes? "account" =
        some [{ logicalName := "name", entityName := "account", type := .string }] ∧
      (c.entityOfCode? 1).map (·.logicalName) = some "account" ∧ Answers known.supplied c ∧
      c.names? ≠ none ∧ Alike c c' := by
  intro accounts detailed contacts known other
  obtain ⟨c, hc⟩ := known.answers_last.1.2 fun es hes => by cases hes; decide +kernel
  obtain ⟨c', hc'⟩ := other.answers_last.1.2 fun es hes => (nomatch hes)
  obtain ⟨hanswers, hnames, halike⟩ := known.answers_last.2.2 c hc
  have hlast (name : String) : last? known.supplied name = last? other.supplied name := by
    change last? [accounts, contacts, detailed] name = last? [accounts, detailed, contacts] name
    by_cases haccount : "account" = name
    · subst haccount
      rfl
    · by_cases hcontact : "contact" = name
      · subst hcontact
        rfl
      · simp [last?, accounts, detailed, contacts, haccount, hcontact]
  obtain rfl : _ = c := Except.ok.inj hc
  exact ⟨_, c', hc, hc', hlast, by decide +kernel, by decide +kernel, hanswers,
    fun hnone => (nomatch (hnames.1 hnone).1), halike other c' hc' hlast⟩

/-- Before a connection and with an empty list of entities a catalog was told the same, namely
nothing, but only the empty list is one: that **same last descriptors give the same list of names**
is false. -/
theorem names_differ :
    ¬∀ h h' c c', History.catalog h = .ok c → History.catalog h' = .ok c' →
      (∀ name, last? h.supplied name = last? h'.supplied name) → c.names? = c'.names? := by
  intro hsame
  have heq := hsame ⟨none, []⟩ ⟨some [], []⟩ _ _ rfl rfl fun _ => rfl
  exact absurd heq (by decide)

end History

end Catalog

end QueryEditor
