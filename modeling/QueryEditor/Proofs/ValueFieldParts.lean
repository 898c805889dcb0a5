import QueryEditor.Proofs.GuidSpellings
import QueryEditor.Proofs.ValueFieldCases
import QueryEditor.Proofs.ValueFieldChoices

/-!
# What the parts of the value field say together

A field is put together in one of four ways (`ValueField.Built`), and each of them leaves the parts
of the others empty.

* `ValueField.built_select` : the field is put together in one of these ways.
* `ValueField.consistent_select` : **the parts of the field agree**, with each other and with what
  the decision depends on.
-/

namespace QueryEditor

/-- No blank text identifies a record. -/
theorem Guid.not_blank_of_literal? {s : String} {id : Guid} (h : Guid.literal? s = some id) :
    Text.blank s = false := by
  refine Bool.eq_false_iff.2 fun hblank => ?_
  rw [literal?_eq_ofPlain?, Text.trimmed_of_all hblank] at h
  cases h

namespace ValueField

/-! ### How a field is put together -/

theorem Mode.OffersChoices.not_editsGuid {m : Mode} (h : m.OffersChoices) : ¬m.EditsGuid := by
  rintro (rfl | rfl)
  all_goals exact h.elim nofun (Or.rec nofun nofun)

/-- Values of the attribute's type are listed, and none of them stands in a node yet. -/
def AwaitsList (i : Input) : Prop :=
  ∃ op, i.operator = some op ∧ op.isMulti = true ∧ op.operand = some .ofAttribute ∧
    i.bound.isSome = true ∧ i.children = 0

/-- How a field is put together. -/
inductive Built (i : Input) : ValueField → Prop
  | closed (h : ¬AwaitsList i) : Built i disabled
  | text {hint : Option String} (hhint : hint.isSome = true ↔ AwaitsList i) :
      Built i (freeText i.value hint)
  | guid {op : Operator} {hint : Option String} (hop : i.operator = some op)
      (hhint : hint.isSome = true ↔ AwaitsList i) :
      Built i ((freeText i.value hint).withGuid i op)
  | picker {mode : Mode} {choices : List Choice} (h : ¬AwaitsList i) (hmode : mode.OffersChoices) :
      Built i (picker mode i.value choices)

variable {i : Input} {op : Operator} {a : Attribute} {t : AttributeType} {hint : Option String}

theorem awaitsList_iff (h : i.operator = some op) : AwaitsList i ↔
    op.isMulti = true ∧ op.operand = some .ofAttribute ∧ i.bound.isSome = true ∧
      i.children = 0 := by
  simp [AwaitsList, h]

theorem built_literalField (h : i.operator = some op)
    (hhint : hint.isSome = true ↔ AwaitsList i) : Built i (literalField i op t hint) := by
  unfold literalField forType
  split
  · exact .guid h hhint
  · exact .text hhint

theorem built_attributeField (h : i.operator = some op) (ho : op.operand = some .ofAttribute)
    (hb : i.bound = some a) : Built i (attributeField i op a) := by
  have hawaits : AwaitsList i ↔ op.isMulti = true ∧ i.children = 0 := by
    simp [awaitsList_iff h, ho, hb]
  cases hm : op.isMulti with
  | true =>
    rw [attributeField_of_multi hm]
    split
    case isTrue hc => exact built_literalField h (by simp [hawaits, hm, hc])
    case isFalse hc => exact .closed (by simp [hawaits, hc])
  | false =>
    have hnot : ¬AwaitsList i := by simp [hawaits, hm]
    obtain hfield | ⟨mode, choices, hoffers, hfield⟩ := attributeField_cases_of_single hm i a
    · rw [show attributeField i op a = literalField i op (valueType a) none from hfield i.value]
      exact built_literalField h (by simp [hnot])
    · rw [show attributeField i op a = picker mode i.value choices from hfield i.value]
      exact .picker hnot hoffers.offersChoices

/-- **The field is put together in one of these ways.** -/
theorem built_select (i : Input) : Built i (select i) := by
  cases h : i.operator with
  | none =>
    rw [show select i = freeText i.value none by simp [select, h]]
    exact .text (by simp [AwaitsList, h])
  | some op =>
    have hawaits := awaitsList_iff h
    cases ho : op.operand with
    | none =>
      rw [show select i = disabled by simp [select, h, ho]]
      exact .closed (by simp [hawaits, ho])
    | some operand =>
      cases operand with
      | fixed t =>
        rw [show select i = literalField i op t none by simp [select, h, ho]]
        exact built_literalField h (by simp [hawaits, ho])
      | ofAttribute =>
        cases hb : i.bound with
        | none =>
          rw [show select i = literalField i op .string none by simp [select, h, ho, hb]]
          exact built_literalField h (by simp [hawaits, hb])
        | some a =>
          rw [select_eq_attributeField h ho hb]
          exact built_attributeField h ho hb

/-! ### The parts of a field -/

/-- The parts of a field agree with each other and with what the decision depends on. -/
structure Consistent (i : Input) (f : ValueField) : Prop where
  /-- A search is offered exactly if there are entities to go through. -/
  lookupAvailable_iff : f.lookupAvailable = true ↔ f.lookupTargets ≠ []
  /-- Only an identifier is searched for. -/
  editsGuid_of_lookupTargets : f.lookupTargets ≠ [] → f.mode.EditsGuid
  /-- An identifier is searched for exactly if the user prefers it and can do so. -/
  mode_eq_guidLookup_iff :
    f.mode = .guidLookup ↔ f.mode.EditsGuid ∧ i.useLookup = true ∧ f.lookupTargets ≠ []
  /-- Only a picker has choices. -/
  offersChoices_of_choices : f.choices ≠ [] → f.mode.OffersChoices
  /-- A picker shows the value at hand. -/
  value_of_choices : f.choices ≠ [] → f.value = i.value
  /-- The first choice of the value without white space around it is the one that is picked. -/
  selected_eq_some_iff : ∀ k, f.selected = some k ↔ IsFirst f.choices (Text.trim i.value) k
  /-- No choice is picked exactly if there is none of this value. -/
  selected_eq_none_iff : f.selected = none ↔ ∀ c ∈ f.choices, c.value ≠ Text.trim i.value
  /-- There is a hint exactly if values of the attribute's type are listed and none of them stands
  in a node yet. -/
  hint_isSome_iff : f.hint.isSome = true ↔ AwaitsList i
  /-- The name of a record is looked up exactly if the value is a single identifier, the user
  prefers a search, and the value identifies a record that some entity may hold. -/
  labelRequest_eq_some_iff : ∀ r, f.labelRequest = some r ↔
    f.mode.EditsGuid ∧ (∃ op, i.operator = some op ∧ op.isMulti = false) ∧ i.useLookup = true ∧
      Guid.literal? i.value = some r.id ∧ r.id ≠ Guid.nil ∧
        r.targets = labelTargets i.bound i.target ∧ r.targets ≠ []
  /-- The value whose record is named stays as it is. -/
  value_of_labelRequest : f.labelRequest.isSome = true → f.value = i.value
  /-- A field that takes no value shows nothing. -/
  eq_of_disabled : f.mode = .disabled → f = { mode := .disabled, value := "" }

theorem not_isFirst_nil (value : String) (k : Nat) : ¬IsFirst [] value k :=
  fun ⟨h, _⟩ => absurd h (Nat.not_lt_zero k)

theorem findIdx?_eq_some_iff_isFirst (choices : List Choice) (value : String) (k : Nat) :
    choices.findIdx? (·.value == value) = some k ↔ IsFirst choices value k := by
  rw [List.findIdx?_eq_some_iff_getElem]
  simp [IsFirst]

theorem labelRequest?_eq_some_iff (r : LabelRequest) :
    labelRequest? i op = some r ↔ op.isMulti = false ∧ i.useLookup = true ∧
      Guid.literal? i.value = some r.id ∧ r.id ≠ Guid.nil ∧
        r.targets = labelTargets i.bound i.target ∧ r.targets ≠ [] := by
  obtain ⟨id, targets⟩ := r
  unfold labelRequest?
  split
  case isTrue hoff =>
    have hoff : i.useLookup = false ∨ op.isMulti = true := by simpa using hoff
    refine iff_of_false nofun ?_
    rintro ⟨hm, hl, -⟩
    simp [hm, hl] at hoff
  case isFalse hon =>
    obtain ⟨hl, hm⟩ : i.useLookup = true ∧ op.isMulti = false := by simpa using hon
    split
    case h_1 hread => simp [hread]
    case h_2 id' hread =>
      simp only [hread, hm, hl, true_and, Option.some.injEq]
      split
      case isTrue hnone =>
        refine iff_of_false nofun ?_
        rintro ⟨rfl, hid, rfl, htargets⟩
        exact hnone.elim hid htargets
      case isFalse hsome =>
        obtain ⟨hid, htargets⟩ := not_or.1 hsome
        constructor
        · rintro h
          obtain ⟨rfl, rfl⟩ := by simpa using h
          exact ⟨rfl, hid, rfl, htargets⟩
        · rintro ⟨rfl, -, rfl, -⟩
          rfl

/-! ### Fields of each kind -/

theorem consistent_disabled (h : ¬AwaitsList i) : Consistent i disabled where
  lookupAvailable_iff := iff_of_false nofun (absurd rfl)
  editsGuid_of_lookupTargets := absurd rfl
  mode_eq_guidLookup_iff := iff_of_false nofun fun h => h.2.2 rfl
  offersChoices_of_choices := absurd rfl
  value_of_choices := absurd rfl
  selected_eq_some_iff k := iff_of_false nofun (not_isFirst_nil _ k)
  selected_eq_none_iff := iff_of_true rfl nofun
  hint_isSome_iff := iff_of_false nofun h
  labelRequest_eq_some_iff _ := iff_of_false nofun fun h => h.1.elim nofun nofun
  value_of_labelRequest := nofun
  eq_of_disabled _ := rfl

theorem consistent_freeText (h : hint.isSome = true ↔ AwaitsList i) :
    Consistent i (freeText i.value hint) where
  lookupAvailable_iff := iff_of_false nofun (absurd rfl)
  editsGuid_of_lookupTargets := absurd rfl
  mode_eq_guidLookup_iff := iff_of_false nofun fun h => h.2.2 rfl
  offersChoices_of_choices := absurd rfl
  value_of_choices _ := rfl
  selected_eq_some_iff k := iff_of_false nofun (not_isFirst_nil _ k)
  selected_eq_none_iff := iff_of_true rfl nofun
  hint_isSome_iff := h
  labelRequest_eq_some_iff _ := iff_of_false nofun fun h => h.1.elim nofun nofun
  value_of_labelRequest _ := rfl
  eq_of_disabled := nofun

theorem consistent_withGuid (hop : i.operator = some op)
    (h : hint.isSome = true ↔ AwaitsList i) :
    Consistent i ((freeText i.value hint).withGuid i op) where
  lookupAvailable_iff := by simp [withGuid]
  editsGuid_of_lookupTargets _ := editsGuid_withGuid
  mode_eq_guidLookup_iff := by
    rw [and_iff_right editsGuid_withGuid]
    simp [withGuid]
  offersChoices_of_choices := absurd rfl
  value_of_choices := absurd rfl
  selected_eq_some_iff k := iff_of_false nofun (not_isFirst_nil _ k)
  selected_eq_none_iff := iff_of_true rfl nofun
  hint_isSome_iff := h
  labelRequest_eq_some_iff r := by
    have hsingle : (∃ op, i.operator = some op ∧ op.isMulti = false) ↔ op.isMulti = false := by
      simp [hop]
    rw [hsingle, and_iff_right editsGuid_withGuid]
    exact labelRequest?_eq_some_iff r
  value_of_labelRequest hsome := by
    obtain ⟨r, hr⟩ := Option.isSome_iff_exists.1 hsome
    obtain ⟨-, -, hread, -⟩ := (labelRequest?_eq_some_iff r).1 hr
    simp [withGuid, freeText, Guid.not_blank_of_literal? hread]
  eq_of_disabled h := absurd h editsGuid_withGuid.ne_disabled

theorem consistent_picker {mode : Mode} {choices : List Choice} (h : ¬AwaitsList i)
    (hmode : mode.OffersChoices) : Consistent i (picker mode i.value choices) where
  lookupAvailable_iff := iff_of_false nofun (absurd rfl)
  editsGuid_of_lookupTargets := absurd rfl
  mode_eq_guidLookup_iff :=
    iff_of_false (fun h => hmode.not_editsGuid (.inr h)) fun h => h.2.2 rfl
  offersChoices_of_choices _ := hmode
  value_of_choices _ := rfl
  selected_eq_some_iff := findIdx?_eq_some_iff_isFirst choices (Text.trim i.value)
  selected_eq_none_iff := by simp [picker]
  hint_isSome_iff := iff_of_false nofun h
  labelRequest_eq_some_iff _ := iff_of_false nofun fun h => hmode.not_editsGuid h.1
  value_of_labelRequest := nofun
  eq_of_disabled h := absurd h hmode.ne_disabled

/-- **The parts of the field agree**, with each other and with what the decision depends on. -/
theorem consistent_select (i : Input) : Consistent i (select i) := by
  have hbuilt := built_select i
  generalize select i = f at hbuilt
  cases hbuilt with
  | closed h => exact consistent_disabled h
  | text h => exact consistent_freeText h
  | guid hop h => exact consistent_withGuid hop h
  | picker h hmode => exact consistent_picker h hmode

end ValueField

end QueryEditor
