import QueryEditor.Proofs.ConditionSite
import QueryEditor.Proofs.LayoutCommand
import QueryEditor.Proofs.ValueFieldCases

/-!
# Where a search for records looks

For the primary identifier of an entity a search for records goes through one entity only.  It
takes the entity under which the condition stands, which on a command line is always the root
entity; the attribute comes from the entity that the condition is about, which a scope may change.

* `ValueField.lookupTargets_select` : what a search goes through where an identifier is edited.
* `Console.run_mode_eq_outcome` : a run of the command shows the view of its condition.
* `Console.run_mode_searches_schema_iff` : **a search goes through the entity that the condition
  is about exactly when that is the root entity**, or another of its name.
* `Console.run_mode_searches_root` : a run that offers to search accounts for a contact.
-/

namespace QueryEditor

namespace ValueField

variable {i : Input} {op : Operator} {a : Attribute} {t : AttributeType}

/-- A field for an identifier searches the entities behind it. -/
theorem lookupTargets_select (h : i.operator = some op) (hopen : ¬IsClosed i op)
    (ht : type? op i.bound = some t) (hguid : t.carriesGuid = true) :
    (select i).lookupTargets = searchTargets i.bound i.enclosing := by
  obtain ⟨hclosed, -⟩ | ⟨-, t', ht', hfield⟩ := select_cases h
  · exact absurd hclosed hopen
  obtain rfl : t = t' := Option.some.inj (ht.symm.trans ht')
  obtain ⟨hint, hs⟩ | ⟨hother, -⟩ := hfield
  · rw [hs, literalField, forType_eq_withGuid hguid]
    rfl
  · rw [hguid] at hother
    cases hother

/-- The records of a primary identifier are those of the enclosing entity. -/
theorem searchTargets_of_isPrimaryId (htype : a.type = .uniqueidentifier)
    (hprimary : a.isPrimaryId = true) (hlogical : a.isLogical = false)
    (enclosing : Option String) : searchTargets (some a) enclosing = enclosing.toList := by
  simp [searchTargets, htype, hprimary, hlogical, AttributeType.isReference]

end ValueField

namespace Console

variable {files : Files} {args : List String} {options : Options} {s : Session}
  {c : ConditionArguments} {target : String} {resolve : Bool} {op : Operator} {a : Attribute}

/-! ### A run of the command -/

/-- What is left behind after a view is shown. -/
def ModeView.outcome (v : ModeView) (o : Options) : Outcome :=
  if o.isQuiet then {}
  else match o.format with
    | .json => .printJson v.toJson
    | .text => { stdout := unlines v.lines }

theorem run_of_load {command : Command}
    (hargs : Request.ofArguments args = .ok (.perform options command))
    (hload : Session.load files options = .ok s) : run files args = command.carryOut files s := by
  rw [run, hargs]
  dsimp only
  rw [Request.carryOut, hload]

/-- **A run of the command shows the view of its condition.** -/
theorem run_mode_eq_outcome
    (hargs : Request.ofArguments args = .ok (.perform options (.mode c target resolve)))
    (hload : Session.load files options = .ok s) :
    run files args = (modeView s c target resolve).outcome options := by
  rw [run_of_load hargs hload, ← options_of_load hload]
  rfl

/-- What the field of a condition depends on, read off the command line. -/
def ConditionArguments.fieldInput (c : ConditionArguments) (s : Session) (target : String) :
    ValueField.Input where
  operator := Operator.find? c.operator
  bound := c.condition.attribute? (s.catalog.attributes? c.schema)
  value := c.value
  children := c.nodes.length
  target
  enclosing := some c.entity
  entities := if s.catalog.isListed then some s.catalog.entities else none
  useLookup := s.settings.useLookup

theorem fieldOf_site (s : Session) (c : ConditionArguments) (target : String) :
    fieldOf s c.site target = ValueField.select (c.fieldInput s target) := by
  rw [fieldOf, s.attributesOf_site c, c.length_children_node_site, c.enclosing?_site]
  rfl

/-! ### The entity that is searched -/

/-- The condition compares an identifier with the primary identifier of the entity that it is
about, and has no value nodes. -/
structure ConditionArguments.ComparesPrimaryId (c : ConditionArguments) (s : Session)
    (op : Operator) (a : Attribute) : Prop where
  operator : Operator.find? c.operator = some op
  /-- The value has the type of the attribute, or is an identifier in any case. -/
  operand : op.operand = some .ofAttribute ∨
    ∃ t, op.operand = some (.fixed t) ∧ t.carriesGuid = true
  /-- The attribute is found among those of the entity. -/
  bound : c.condition.attribute? (s.catalog.attributes? c.schema) = some a
  type : a.type = .uniqueidentifier
  isPrimaryId : a.isPrimaryId = true
  isLogical : a.isLogical = false
  nodes : c.nodes = []

namespace ConditionArguments

/-- The condition is about the root entity exactly when its scope names no linked entity with
another name. -/
theorem schema_eq_entity_iff :
    c.schema = c.entity ↔ ∀ l, c.selected? = some l → l.name = c.entity := by
  rw [schema]
  cases c.selected? <;> simp

/-- The search goes through the root entity, whatever the condition is about. -/
theorem ComparesPrimaryId.lookupTargets (h : c.ComparesPrimaryId s op a) (target : String) :
    (fieldOf s c.site target).lookupTargets = [c.entity] := by
  obtain ⟨t, ht, hguid⟩ :
      ∃ t, ValueField.type? op (some a) = some t ∧ t.carriesGuid = true := by
    obtain ho | ⟨t, ho, hguid⟩ := h.operand
    · have htype : ValueField.valueType a = .uniqueidentifier := by
        rw [ValueField.valueType_of_ne (h.type ▸ nofun), h.type]
      exact ⟨.uniqueidentifier, by simp [ValueField.type?, ho, htype], rfl⟩
    · exact ⟨t, by simp [ValueField.type?, ho], hguid⟩
  have hoperand : op.operand ≠ none := by
    obtain ho | ⟨t, ho, -⟩ := h.operand <;> rw [ho] <;> exact Option.some_ne_none _
  have hop : (c.fieldInput s target).operator = some op := by
    simpa only [fieldInput] using h.operator
  have hbound : (c.fieldInput s target).bound = some a := h.bound
  have hchildren : (c.fieldInput s target).children = 0 := congrArg List.length h.nodes
  have hopen : ¬ValueField.IsClosed (c.fieldInput s target) op := by
    rintro (hnone | ⟨-, -, -, hpos⟩)
    · exact hoperand hnone
    · omega
  rw [fieldOf_site, ValueField.lookupTargets_select hop hopen (hbound.symm ▸ ht) hguid, hbound,
    ValueField.searchTargets_of_isPrimaryId h.type h.isPrimaryId h.isLogical]
  rfl

end ConditionArguments

/-- **Which entity is searched.**  A run whose condition compares an identifier with the primary
identifier of the entity that it is about shows a field that searches the root entity.  This is
the entity that the condition is about exactly when the scope of the condition names no linked
entity, or one with the name of the root entity. -/
theorem run_mode_searches_schema_iff
    (hargs : Request.ofArguments args = .ok (.perform options (.mode c target resolve)))
    (hload : Session.load files options = .ok s) (h : c.ComparesPrimaryId s op a) :
    run files args = (modeView s c target resolve).outcome options ∧
      (modeView s c target resolve).field.lookupTargets = [c.entity] ∧
      ((modeView s c target resolve).field.lookupTargets = [c.schema] ↔
        ∀ l, c.selected? = some l → l.name = c.entity) := by
  have htargets : (modeView s c target resolve).field.lookupTargets = [c.entity] :=
    h.lookupTargets target
  refine ⟨run_mode_eq_outcome hargs hload, htargets, ?_⟩
  rw [htargets, List.singleton_inj, eq_comm, ConditionArguments.schema_eq_entity_iff]

/-! ### Contacts -/

/-- What the files describe can be compared part by part. -/
theorem load_eq_ok
    (h : (Session.load files options).toOption.map
        (fun s => (s.options, s.settings, s.catalog, s.records)) =
      some (s.options, s.settings, s.catalog, s.records)) :
    Session.load files options = .ok s := by
  cases hload : Session.load files options with
  | error message => rw [hload] at h; cases h
  | ok s' =>
    rw [hload] at h
    obtain ⟨options, settings, catalog, records⟩ := s
    obtain ⟨options', settings', catalog', records'⟩ := s'
    cases h
    rfl

/-- The primary identifier of a contact. -/
def contactId : Attribute :=
  { logicalName := "contactid", entityName := "contact", type := .uniqueidentifier,
    isPrimaryId := true }

/-- A snapshot of contacts with their primary identifier. -/
def contactFiles : Files
  | "catalog.json" => .ok ("\x7b\"entities\":[\x7b\"logical_name\":\"contact\"," ++
      "\"attributes\":[\x7b\"logical_name\":\"contactid\",\"type\":\"uniqueidentifier\"," ++
      "\"is_primary_id\":true\x7d]\x7d]\x7d")
  | _ => .error .notFound

/-- What these files describe. -/
def contactSession : Session where
  options := { catalog := some "catalog.json" }
  settings := {}
  catalog := ⟨[{ logicalName := "contact", attributes := some [contactId] }], true, []⟩
  records := []

theorem load_contact :
    Session.load contactFiles { catalog := some "catalog.json" } = .ok contactSession :=
  load_eq_ok (by decide +kernel)

/-- A command line about the identifier of a contact that is joined to an entity. -/
def contactLine (entity link scope : String) : List String :=
  ["--catalog", "catalog.json", "mode", "--entity", entity, "--link", link, "--scope", scope,
    "--attribute", "contactid", "--operator", "eq"]

/-- The condition of such a command line. -/
def contactArguments (entity link scope : String) : ConditionArguments :=
  { entity, attributeName := "contactid", operator := "eq", links := [link], scope := some scope }

theorem comparesPrimaryId_contact {entity link scope : String}
    (h : (contactArguments entity link scope).schema = "contact") :
    (contactArguments entity link scope).ComparesPrimaryId contactSession (.comparison "eq")
      contactId where
  operator := show Operator.find? "eq" = _ by decide
  operand := .inl rfl
  bound := by
    rw [h]
    change (contactSession.catalog.attributes? "contact").bind
      (fun attributes => Attribute.find? attributes "contactid") = some contactId
    decide
  type := rfl
  isPrimaryId := rfl
  isLogical := rfl
  nodes := rfl

/-- For the manager of a contact, itself a contact, the search goes through contacts. -/
theorem run_mode_searches_schema_of_manager :
    let c := contactArguments "contact" "contact:manager" "manager"
    c.selected? = some ⟨"contact", some "manager"⟩ ∧
      (modeView contactSession c "" false).field.lookupTargets = [c.schema] ∧
      (run contactFiles (contactLine "contact" "contact:manager" "manager")).stdout =
        "mode: guid_free_text\nvalue: 00000000-0000-0000-0000-000000000000\n" ++
          "lookup: contact\n" := by
  have hargs : Request.ofArguments (contactLine "contact" "contact:manager" "manager") =
      .ok (.perform { catalog := some "catalog.json" }
        (.mode (contactArguments "contact" "contact:manager" "manager") "" false)) := by
    decide
  have hselected : (contactArguments "contact" "contact:manager" "manager").selected? =
      some ⟨"contact", some "manager"⟩ := by
    decide
  have hschema : (contactArguments "contact" "contact:manager" "manager").schema = "contact" := by
    rw [ConditionArguments.schema, hselected]
    rfl
  obtain ⟨hrun, -, hiff⟩ :=
    run_mode_searches_schema_iff hargs load_contact (comparesPrimaryId_contact hschema)
  refine ⟨hselected, hiff.2 fun l hl => ?_, ?_⟩
  · obtain rfl : ⟨"contact", some "manager"⟩ = l := Option.some.inj (hselected.symm.trans hl)
    rfl
  · rw [hrun]
    decide

/-- **The search may miss the record.**  The condition is about the identifier of a contact, and
the search goes through accounts, where no contact can be found. -/
theorem run_mode_searches_root :
    let c := contactArguments "account" "contact:pc" "pc"
    Session.load contactFiles { catalog := some "catalog.json" } = .ok contactSession ∧
      c.ComparesPrimaryId contactSession (.comparison "eq") contactId ∧
      c.schema = "contact" ∧
      (modeView contactSession c "" false).field.lookupTargets = ["account"] ∧
      (run contactFiles (contactLine "account" "contact:pc" "pc")).stdout =
        "mode: guid_free_text\nvalue: 00000000-0000-0000-0000-000000000000\n" ++
          "lookup: account\n" := by
  have hargs : Request.ofArguments (contactLine "account" "contact:pc" "pc") =
      .ok (.perform { catalog := some "catalog.json" }
        (.mode (contactArguments "account" "contact:pc" "pc") "" false)) := by
    decide
  have hschema : (contactArguments "account" "contact:pc" "pc").schema = "contact" := by
    decide
  have h := comparesPrimaryId_contact hschema
  refine ⟨load_contact, h, hschema, h.lookupTargets "", ?_⟩
  rw [run_mode_eq_outcome hargs load_contact]
  decide

end Console

end QueryEditor
