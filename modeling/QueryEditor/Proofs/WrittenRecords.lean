import QueryEditor.Condition.Basic
import QueryEditor.Proofs.CatalogContents
import QueryEditor.Proofs.JsonTexts
import QueryEditor.Query.Column
import QueryEditor.Server

/-!
# Records read back

Which members a record leaves out when it is written, and what stands for them when it is read, is
said field by field.  The two agree: what is written of a record is read as that record, whichever
of its fields are there.  So a snapshot makes the same catalog as the entities that were written
into it.

* `Json.exists_record` : an object has for every field what was written of it.
* `Json.ReadsBack.list`, `Entity.readsBack`, ... : **what is written is read back**, for each kind
  of value and record.
* `Catalog.readsBack_snapshot` : so are the entities of a snapshot.
* `records_read_back` : **the records of the editor are read back from JSON values and from texts**,
  and a snapshot makes the catalog of its entities.
-/

namespace QueryEditor

namespace Json

variable {α : Type} {write : α → Json} {read : Json → Option α} {names : List String}
  {name : String} {a : α} {r : Record}

/-- What is written is read back, is printed as it is, and is never taken for a missing value. -/
structure ReadsBack (write : α → Json) (read : Json → Option α) : Prop where
  read_write : ∀ a, read (write a) = some a
  plain : ∀ a, Plain (write a)
  ne_null : ∀ a, write a ≠ .null

/-- What is written is read back from the value and from its text. -/
def RoundTrips (write : α → Json) (read : Json → Option α) : Prop :=
  ∀ a, read (write a) = some a ∧ (read? (pretty (write a))).bind read = some a

/-! ### Values -/

namespace ReadsBack

theorem injective (h : ReadsBack write read) : Function.Injective write :=
  fun a b hab => Option.some.inj (by rw [← h.read_write a, hab, h.read_write b])

theorem roundTrips (h : ReadsBack write read) : RoundTrips write read := fun a =>
  ⟨h.read_write a, by rw [(h.plain a).read?_pretty, Option.bind_some, h.read_write]⟩

theorem text : ReadsBack Json.text text? := ⟨fun _ => rfl, .text, nofun⟩

theorem bool : ReadsBack Json.bool bool? := ⟨fun _ => rfl, .bool, nofun⟩

theorem int32 : ReadsBack ofInt32 int32? := ⟨Numeral.narrow32?_toInt, fun n => .int n.toInt, nofun⟩

theorem list (h : ReadsBack write read) :
    ReadsBack (fun as : List α => .arr (as.map write)) (list? read) where
  read_write as := by
    change (as.map write).mapM read = some as
    induction as with
    | nil => rfl
    | cons a as ih => rw [List.map_cons, List.mapM_cons, h.read_write, ih]; rfl
  plain as := .arr (List.forall_mem_map.2 fun a _ => h.plain a)
  ne_null := nofun

end ReadsBack

/-! ### Objects -/

/-- A field and what is written of it, if anything is.  Unlike a member that is left out, it keeps
its name. -/
abbrev Slot := String × Option Json

/-- The member that is written. -/
def Slot.member (s : Slot) : Member := s.2.map fun v => (s.1, v)

@[simp] theorem Slot.member_some (v : Json) : Slot.member (name, some v) = .always name v := rfl

@[simp] theorem Slot.member_map (o : Option α) :
    Slot.member (name, o.map write) = .optional name write o := by
  simp [Slot.member, Member.optional, Function.comp_def]

/-- What is written of a list that is left out when it is empty. -/
def nonempty? (write : α → Json) (as : List α) : Option Json :=
  if as.isEmpty then none else some (.arr (as.map write))

@[simp] theorem Slot.member_nonempty? (as : List α) :
    Slot.member (name, nonempty? write as) = .nonempty name write as := by
  cases as <;> rfl

/-- What is written of the field is printed as it is. -/
def Slot.IsPlain (s : Slot) : Prop := ∀ v ∈ s.2, Plain v

namespace ReadsBack

theorem isPlain_some (h : ReadsBack write read) : Slot.IsPlain (name, some (write a)) := by
  rintro _ ⟨⟩
  exact h.plain a

theorem isPlain_map (h : ReadsBack write read) (o : Option α) :
    Slot.IsPlain (name, o.map write) := by
  cases o with
  | none => exact nofun
  | some a => exact h.isPlain_some

theorem isPlain_nonempty? (h : ReadsBack write read) (as : List α) :
    Slot.IsPlain (name, nonempty? write as) := by
  cases as with
  | nil => exact nofun
  | cons a as => exact h.list.isPlain_some

end ReadsBack

theorem plain_object {slots : List Slot} (h : ∀ s ∈ slots, s.IsPlain) :
    Plain (object (slots.map Slot.member)) := by
  refine .obj fun m hm => ?_
  obtain ⟨s, hs, hmember⟩ : ∃ s ∈ slots, s.member = some m := by simpa using hm
  obtain ⟨v, hv, rfl⟩ := Option.map_eq_some_iff.1 hmember
  exact h s hs v hv

theorem declared?_of_forall_mem {members : Record} (h : ∀ m ∈ members, m.1 ∈ names) :
    declared? names (members.map fun (name, value) => (some name, value)) = some members := by
  induction members with
  | nil => rfl
  | cons m members ih =>
    obtain ⟨hm, hmembers⟩ := List.forall_mem_cons.1 h
    simp [declared?, ih hmembers, hm]

theorem names_members_sublist (slots : List Slot) :
    ((slots.filterMap Slot.member).map (·.1)).Sublist (slots.map (·.1)) := by
  induction slots with
  | nil => exact .slnil
  | cons s slots ih =>
    obtain ⟨name, _ | v⟩ := s
    · exact ih.cons name
    · exact ih.cons_cons name

theorem field?_eq_none (h : name ∉ r.map (·.1)) : r.field? name = none := by
  rw [Record.field?, List.find?_eq_none.2, Option.map_none]
  rintro ⟨other, v⟩ hmem heq
  exact h (List.mem_map.2 ⟨_, hmem, beq_iff_eq.1 heq⟩)

theorem field?_cons_of_ne {m : String × Json} (h : m.1 ≠ name) :
    Record.field? (m :: r) name = r.field? name := by
  simp [Record.field?, h]

theorem field?_members {slots : List Slot} (hnodup : (slots.map (·.1)).Nodup) {s : Slot}
    (hs : s ∈ slots) : Record.field? (slots.filterMap Slot.member) s.1 = s.2 := by
  induction slots with
  | nil => cases hs
  | cons t slots ih =>
    obtain ⟨hfirst, hrest⟩ := List.nodup_cons.1 hnodup
    obtain rfl | hmem := List.mem_cons.1 hs
    · obtain ⟨name, _ | v⟩ := s
      · exact field?_eq_none (mt ((names_members_sublist slots).subset ·) hfirst)
      · simp [Slot.member, Record.field?]
    · have hne : t.1 ≠ s.1 := fun heq => hfirst (List.mem_map.2 ⟨s, hmem, heq.symm⟩)
      obtain ⟨name, _ | v⟩ := t
      · exact ih hrest hmem
      · exact (field?_cons_of_ne hne).trans (ih hrest hmem)

/-- **An object is read as the record it was written of**: every field has what was written of
it. -/
theorem exists_record (names : List String) (slots : List Slot)
    (hnodup : (slots.map (·.1)).Nodup) (hdeclared : slots.map (·.1) ⊆ names) :
    ∃ r, (object (slots.map Slot.member)).record? names = some r ∧
      ∀ s ∈ slots, r.field? s.1 = s.2 := by
  have hnames := names_members_sublist slots
  refine ⟨slots.filterMap Slot.member, ?_, fun s hs => field?_members hnodup hs⟩
  have hread := declared?_of_forall_mem fun m hm =>
    hdeclared (hnames.subset (List.mem_map_of_mem hm))
  rw [object, List.filterMap_map, Function.id_comp, record?, hread, Option.bind_some,
    if_pos (hnodup.sublist hnames)]

namespace ReadsBack

/-- A record is read back if its fields are: `slots` is what is written of each, `fields` puts the
record together from them. -/
theorem of_slots (names : List String) (slots : α → List Slot) {fields : Record → Option α}
    (hwrite : ∀ a, write a = object ((slots a).map Slot.member))
    (hread : ∀ j, read j = (j.record? names).bind fields)
    (hnodup : ∀ a, ((slots a).map (·.1)).Nodup) (hdeclared : ∀ a, (slots a).map (·.1) ⊆ names)
    (hplain : ∀ a, ∀ s ∈ slots a, s.IsPlain)
    (hfields : ∀ a r, (∀ s ∈ slots a, r.field? s.1 = s.2) → fields r = some a) :
    ReadsBack write read where
  read_write a := by
    obtain ⟨r, hr, hslots⟩ := exists_record names (slots a) (hnodup a) (hdeclared a)
    rw [hread, hwrite, hr, Option.bind_some, hfields a r hslots]
  plain a := by
    rw [hwrite]
    exact plain_object (hplain a)
  ne_null a := by
    rw [hwrite]
    exact nofun

theorem required?_eq (h : ReadsBack write read) (hfield : r.field? name = some (write a)) :
    r.required? name read = some a := by
  rw [Record.required?, hfield, Option.bind_some, h.read_write]

theorem default?_eq (h : ReadsBack write read) {value : α}
    (hfield : r.field? name = some (write a)) : r.default? name value read = some a := by
  rw [Record.default?, hfield]
  exact h.read_write a

theorem optional?_eq (h : ReadsBack write read) {o : Option α}
    (hfield : r.field? name = o.map write) : r.optional? name read = some o := by
  rw [Record.optional?, Record.default?, hfield]
  cases o with
  | none => rfl
  | some a =>
    change nullable? read (write a) = some (some a)
    unfold nullable?
    split
    case h_1 hnull => exact absurd hnull (h.ne_null a)
    case h_2 => rw [h.read_write, Option.map_some]

theorem list_default?_eq (h : ReadsBack write read) {as : List α}
    (hfield : r.field? name = nonempty? write as) :
    r.default? name [] (list? read) = some as := by
  cases as with
  | nil =>
    rw [Record.default?, hfield]
    rfl
  | cons a as => exact h.list.default?_eq hfield

end ReadsBack

end Json

open Json

theorem AttributeType.readsBack : ReadsBack toJson ofJson? :=
  ⟨ofTag?_tag, fun t => .text t.tag, nofun⟩

namespace OptionItem

/-- What is written of each field. -/
def slots (o : OptionItem) : List Slot :=
  [ ("label", some (.text o.label)),
    ("value", some (.ofInt32 o.value)) ]

theorem readsBack : ReadsBack toJson ofJson? := by
  refine .of_slots fieldNames slots ?_ (fun _ => rfl) ?_ ?_ ?_ fun o r hfields => ?_
  case refine_1 => simp [toJson, slots]
  case refine_2 => simp [slots]
  case refine_3 => simp [slots, fieldNames]
  case refine_4 =>
    simp [slots, ReadsBack.text.isPlain_some, ReadsBack.int32.isPlain_some]
  case refine_5 =>
    simp only [slots, List.forall_mem_cons] at hfields
    obtain ⟨hlabel, hvalue, -⟩ := hfields
    simp only [Option.bind_eq_bind, Option.bind_some, ReadsBack.int32.required?_eq hvalue,
      ReadsBack.text.required?_eq hlabel]

end OptionItem

namespace Attribute

/-- What is written of each field. -/
def slots (a : Attribute) : List Slot :=
  [ ("display_name", a.displayName.map Json.text),
    ("entity_logical_name", some (.text a.entityName)),
    ("is_logical", some (.bool a.isLogical)),
    ("is_primary_id", some (.bool a.isPrimaryId)),
    ("logical_name", some (.text a.logicalName)),
    ("options", nonempty? OptionItem.toJson a.options),
    ("targets", nonempty? Json.text a.targets),
    ("type", some a.type.toJson),
    ("value_type", a.valueType.map AttributeType.toJson) ]

theorem readsBack : ReadsBack toJson ofJson? := by
  refine .of_slots fieldNames slots ?_ (fun _ => rfl) ?_ ?_ ?_ fun a r hfields => ?_
  case refine_1 => simp [toJson, slots]
  case refine_2 => simp [slots]
  case refine_3 => simp [slots, fieldNames]
  case refine_4 =>
    simp [slots, ReadsBack.text.isPlain_some, ReadsBack.bool.isPlain_some,
      AttributeType.readsBack.isPlain_some, ReadsBack.text.isPlain_map,
      AttributeType.readsBack.isPlain_map, OptionItem.readsBack.isPlain_nonempty?,
      ReadsBack.text.isPlain_nonempty?]
  case refine_5 =>
    simp only [slots, List.forall_mem_cons] at hfields
    obtain ⟨hdisplay, hentity, hlogical, hprimary, hname, hoptions, htargets, htype, hvalue,
      -⟩ := hfields
    simp only [Option.bind_eq_bind, Option.bind_some, ReadsBack.text.required?_eq hname,
      ReadsBack.text.default?_eq hentity, ReadsBack.text.optional?_eq hdisplay,
      AttributeType.readsBack.required?_eq htype, OptionItem.readsBack.list_default?_eq hoptions,
      ReadsBack.text.list_default?_eq htargets, ReadsBack.bool.default?_eq hprimary,
      ReadsBack.bool.default?_eq hlogical, AttributeType.readsBack.optional?_eq hvalue]

end Attribute

namespace Entity

/-- What is written of each field. -/
def slots (e : Entity) : List Slot :=
  [ ("attributes", e.attributes.map fun as => .arr (as.map Attribute.toJson)),
    ("logical_name", some (.text e.logicalName)),
    ("object_type_code", e.objectTypeCode.map Json.ofInt32),
    ("primary_id_attribute", e.primaryIdAttribute.map Json.text),
    ("primary_name_attribute", e.primaryNameAttribute.map Json.text) ]

theorem readsBack : ReadsBack toJson ofJson? := by
  refine .of_slots fieldNames slots ?_ (fun _ => rfl) ?_ ?_ ?_ fun e r hfields => ?_
  case refine_1 => simp [toJson, slots]
  case refine_2 => simp [slots]
  case refine_3 => simp [slots, fieldNames]
  case refine_4 =>
    simp [slots, ReadsBack.text.isPlain_some, ReadsBack.text.isPlain_map,
      ReadsBack.int32.isPlain_map, Attribute.readsBack.list.isPlain_map]
  case refine_5 =>
    simp only [slots, List.forall_mem_cons] at hfields
    obtain ⟨hattributes, hname, hcode, hid, hprimary, -⟩ := hfields
    simp only [Option.bind_eq_bind, Option.bind_some, ReadsBack.text.required?_eq hname,
      ReadsBack.int32.optional?_eq hcode, ReadsBack.text.optional?_eq hid,
      ReadsBack.text.optional?_eq hprimary, Attribute.readsBack.list.optional?_eq hattributes]

end Entity

namespace Condition

/-- What is written of each field. -/
def slots (c : Condition) : List Slot :=
  [ ("attribute", some (.text c.attributeName)),
    ("entity_name", c.entityName.map Json.text),
    ("operator", some (.text c.operator)),
    ("value", some (.text c.value)),
    ("value_of", some (.text c.valueOf)) ]

theorem readsBack : ReadsBack toJson ofJson? := by
  refine .of_slots fieldNames slots ?_ (fun _ => rfl) ?_ ?_ ?_ fun c r hfields => ?_
  case refine_1 => simp [toJson, slots]
  case refine_2 => simp [slots]
  case refine_3 => simp [slots, fieldNames]
  case refine_4 =>
    simp [slots, ReadsBack.text.isPlain_some, ReadsBack.text.isPlain_map]
  case refine_5 =>
    simp only [slots, List.forall_mem_cons] at hfields
    obtain ⟨hattribute, hentity, hoperator, hvalue, hvalueOf, -⟩ := hfields
    simp only [Option.bind_eq_bind, Option.bind_some, ReadsBack.text.required?_eq hattribute,
      ReadsBack.text.required?_eq hoperator, ReadsBack.text.default?_eq hvalue,
      ReadsBack.text.default?_eq hvalueOf, ReadsBack.text.optional?_eq hentity]

end Condition

namespace Column

/-- What is written of each field. -/
def slots (c : Column) : List Slot :=
  [ ("alias", c.ownAlias.map Json.text),
    ("entity_alias", c.entityAlias.map Json.text),
    ("name", some (.text c.name)) ]

theorem readsBack : ReadsBack toJson ofJson? := by
  refine .of_slots fieldNames slots ?_ (fun _ => rfl) ?_ ?_ ?_ fun c r hfields => ?_
  case refine_1 => simp [toJson, slots]
  case refine_2 => simp [slots]
  case refine_3 => simp [slots, fieldNames]
  case refine_4 =>
    simp [slots, ReadsBack.text.isPlain_some, ReadsBack.text.isPlain_map]
  case refine_5 =>
    simp only [slots, List.forall_mem_cons] at hfields
    obtain ⟨halias, hentity, hname, -⟩ := hfields
    simp only [Option.bind_eq_bind, Option.bind_some, ReadsBack.text.required?_eq hname,
      ReadsBack.text.optional?_eq halias, ReadsBack.text.optional?_eq hentity]

end Column

namespace Settings

/-- What is written of each field. -/
def slots (s : Settings) : List Slot :=
  [ ("column_comparison_supported", some (.bool s.columnComparison)),
    ("use_lookup", some (.bool s.useLookup)) ]

theorem readsBack : ReadsBack toJson ofJson? := by
  refine .of_slots fieldNames slots ?_ (fun _ => rfl) ?_ ?_ ?_ fun s r hfields => ?_
  case refine_1 => simp [toJson, slots]
  case refine_2 => simp [slots]
  case refine_3 => simp [slots, fieldNames]
  case refine_4 =>
    simp [slots, ReadsBack.bool.isPlain_some]
  case refine_5 =>
    simp only [slots, List.forall_mem_cons] at hfields
    obtain ⟨hcolumns, hlookup, -⟩ := hfields
    simp only [Option.bind_eq_bind, Option.bind_some, ReadsBack.bool.default?_eq hcolumns,
      ReadsBack.bool.default?_eq hlookup]

end Settings

/-! ### Snapshots -/

namespace Catalog

/-- The snapshot that holds these entities. -/
def snapshot (es : List Entity) : Json :=
  .object [.always "entities" (.arr (es.map Entity.toJson))]

theorem readsBack_snapshot : ReadsBack snapshot entitiesOfJson? := by
  refine .of_slots fieldNames (fun es => [("entities", some (.arr (es.map Entity.toJson)))])
    (fun _ => rfl) (fun _ => rfl) ?_ ?_ ?_ fun es r hfields => ?_
  case refine_1 => simp
  case refine_2 => simp [fieldNames]
  case refine_3 => simp [Entity.readsBack.list.isPlain_some]
  case refine_4 => exact Entity.readsBack.list.required?_eq (hfields _ List.mem_cons_self)

theorem ofJson_of_eq_some {j : Option Json} {es : List Entity}
    (h : j.bind entitiesOfJson? = some es) : ofJson j = ofEntities es := by
  rw [ofJson, h]

end Catalog

/-- **The records of the editor are read back as they were written**, from JSON values and from
texts: entities with or without a list of attributes, attributes, conditions, columns and settings.
A missing list of attributes and an empty one are not written alike.  A snapshot makes the same
catalog as the entities that were written into it, or the same error when two of them share a
name. -/
theorem records_read_back :
    RoundTrips Entity.toJson Entity.ofJson? ∧ RoundTrips Attribute.toJson Attribute.ofJson? ∧
      RoundTrips Condition.toJson Condition.ofJson? ∧ RoundTrips Column.toJson Column.ofJson? ∧
      RoundTrips Settings.toJson Settings.ofJson? ∧
      (∀ e : Entity,
        { e with attributes := none }.toJson ≠ { e with attributes := some [] }.toJson) ∧
      ∀ es : List Entity,
        Catalog.ofJson (some (Catalog.snapshot es)) = Catalog.ofEntities es ∧
        Catalog.ofJson (read? (pretty (Catalog.snapshot es))) = Catalog.ofEntities es ∧
        ((∃ c, Catalog.ofEntities es = .ok c) ↔ (es.map (·.logicalName)).Nodup) := by
  refine ⟨Entity.readsBack.roundTrips, Attribute.readsBack.roundTrips,
    Condition.readsBack.roundTrips, Column.readsBack.roundTrips, Settings.readsBack.roundTrips,
    fun e heq => ?_, fun es => ?_⟩
  · have hsame := Entity.readsBack.injective heq
    exact absurd (congrArg Entity.attributes hsame) nofun
  · obtain ⟨hvalue, htext⟩ := Catalog.readsBack_snapshot.roundTrips es
    exact ⟨Catalog.ofJson_of_eq_some hvalue, Catalog.ofJson_of_eq_some htext,
      Catalog.exists_ofEntities_iff⟩

end QueryEditor
