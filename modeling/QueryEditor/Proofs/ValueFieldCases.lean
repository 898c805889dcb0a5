import QueryEditor.ValueField

/-!
# What the value field can be

The field is closed where no value can be typed; otherwise it is a field for a literal of one
type, or a picker (`ValueField.select_cases`).  A picker stays one although the type of the value is
looked at after it is made, since no identifier is picked
(`ValueField.Offers.carriesGuid_eq_false`).  From this follows which value the field shows: none
where it is closed, the identifier of no record in place of a blank identifier, and else the value
at hand (`ValueField.value_select_cases`).
-/

namespace QueryEditor

namespace ValueField

variable {i : Input} {op : Operator} {a : Attribute} {t : AttributeType} {hint : Option String}
  {f : ValueField} {entities : Option (List Entity)} {mode : Mode} {choices : List Choice}

/-- The type that the field takes a literal to have: for a managed property the one inside. -/
def type? (op : Operator) (a : Option Attribute) : Option AttributeType :=
  op.operand.map fun
    | .fixed t => t
    | .ofAttribute => (a.map valueType).getD .string

/-- Nothing can be typed: the operator takes no value, or the values of the attribute stand in
nodes of their own. -/
def IsClosed (i : Input) (op : Operator) : Prop :=
  op.operand = none ∨
    op.operand = some .ofAttribute ∧ i.bound.isSome ∧ op.isMulti = true ∧ 0 < i.children

/-- The value is one identifier, so that a blank one is filled in. -/
def FillsIn (op : Operator) (a : Option Attribute) : Prop :=
  op.isMulti = false ∧ ∃ t, type? op a = some t ∧ t.carriesGuid = true

/-- An identifier is edited. -/
def Mode.EditsGuid (m : Mode) : Prop := m = .guidFreeText ∨ m = .guidLookup

/-- A value is picked. -/
def Mode.OffersChoices (m : Mode) : Prop :=
  m = .optionPicker ∨ m = .entityNamePicker ∨ m = .booleanPicker

theorem Mode.EditsGuid.ne_disabled (h : mode.EditsGuid) : mode ≠ .disabled := by
  rintro rfl
  exact h.elim nofun nofun

theorem Mode.OffersChoices.ne_disabled (h : mode.OffersChoices) : mode ≠ .disabled := by
  rintro rfl
  exact h.elim nofun (Or.rec nofun nofun)

/-! ### Fields of each kind -/

theorem editsGuid_withGuid : (f.withGuid i op).mode.EditsGuid := by
  unfold withGuid Mode.EditsGuid
  dsimp only
  split
  · exact .inr rfl
  · exact .inl rfl

theorem forType_eq_self (h : t.carriesGuid = false) : f.forType i op t = f :=
  if_neg (Bool.eq_false_iff.1 h)

theorem forType_eq_withGuid (h : t.carriesGuid = true) :
    f.forType i op t = f.withGuid i op :=
  if_pos h

theorem mode_literalField_ne_disabled : (literalField i op t hint).mode ≠ .disabled := by
  cases ht : t.carriesGuid with
  | true =>
    rw [literalField, forType_eq_withGuid ht]
    exact editsGuid_withGuid.ne_disabled
  | false =>
    rw [literalField, forType_eq_self ht]
    exact nofun

theorem value_literalField :
    (literalField i op t hint).value =
      if t.carriesGuid = true ∧ Text.blank i.value = true ∧ op.isMulti = false then
        Guid.nil.render
      else i.value := by
  unfold literalField forType
  cases t.carriesGuid <;> simp [withGuid, freeText]

/-! ### The decision -/

/-- The choices that there are for an attribute. -/
inductive Offers (entities : Option (List Entity)) (a : Attribute) : Mode → List Choice → Prop
  | options (h : a.type.isEnumerated = true) :
      Offers entities a .optionPicker (optionChoices a)
  | entities {known : List Entity} (h : a.type = .entityName) (hknown : entities = some known) :
      Offers entities a .entityNamePicker (entityChoices known)
  | truth (h : managedType? a = some .boolean) : Offers entities a .booleanPicker truthChoices

/-- Only a managed property has another type inside. -/
theorem valueType_of_ne (h : a.type ≠ .managedProperty) : valueType a = a.type := by
  rw [valueType, managedType?, if_neg h, Option.getD_none]

theorem type_of_managedType? (h : managedType? a = some t) : a.type = .managedProperty := by
  unfold managedType? at h
  split at h
  case isTrue htype => exact htype
  case isFalse => cases h

namespace Offers

theorem offersChoices (h : Offers entities a mode choices) : mode.OffersChoices := by
  cases h with
  | options => exact .inl rfl
  | entities => exact .inr (.inl rfl)
  | truth => exact .inr (.inr rfl)

/-- **No identifier is picked**: what has choices has codes for values. -/
theorem carriesGuid_eq_false (h : Offers entities a mode choices) :
    (valueType a).carriesGuid = false := by
  cases h with
  | options h =>
    rw [valueType_of_ne fun hm => absurd (hm ▸ h) (by decide)]
    exact AttributeType.carriesGuid_of_isEnumerated h
  | entities h =>
    rw [valueType_of_ne (h ▸ nofun), h]
    rfl
  | truth h =>
    rw [valueType, h]
    rfl

end Offers

/-- **What is offered for an attribute**: any text, or a picker with the same choices for every
value at hand. -/
theorem offer_cases (i : Input) (a : Attribute) :
    (∀ text, offer { i with value := text } a = freeText text none) ∨
      ∃ mode choices, Offers i.entities a mode choices ∧
        ∀ text, offer { i with value := text } a = picker mode text choices := by
  unfold offer
  dsimp only
  split
  case isTrue he => exact .inr ⟨_, _, .options he, fun _ => rfl⟩
  case isFalse =>
    split
    case h_1 known ht hknown => exact .inr ⟨_, _, .entities ht hknown, fun _ => rfl⟩
    case h_2 =>
      split
      case isTrue hb => exact .inr ⟨_, _, .truth hb, fun _ => rfl⟩
      case isFalse => exact .inl fun _ => rfl

theorem attributeField_of_multi (hm : op.isMulti = true) (i : Input) (a : Attribute) :
    attributeField i op a = if i.children = 0 then
      literalField i op (valueType a) (some (listHint (valueType a))) else disabled :=
  if_pos hm

/-- The field for a single value of an attribute: a literal of its type, or a picker with the same
choices for every value at hand. -/
theorem attributeField_cases_of_single (hm : op.isMulti = false) (i : Input) (a : Attribute) :
    (∀ text, attributeField { i with value := text } op a =
        literalField { i with value := text } op (valueType a) none) ∨
      ∃ mode choices, Offers i.entities a mode choices ∧
        ∀ text, attributeField { i with value := text } op a = picker mode text choices := by
  have hfield (text : String) : attributeField { i with value := text } op a =
      (offer { i with value := text } a).forType { i with value := text } op (valueType a) :=
    if_neg (Bool.eq_false_iff.1 hm)
  refine (offer_cases i a).imp (fun h text => ?_) ?_
  · rw [hfield, h]
    rfl
  · rintro ⟨mode, choices, hoffers, h⟩
    refine ⟨mode, choices, hoffers, fun text => ?_⟩
    rw [hfield, h, forType_eq_self hoffers.carriesGuid_eq_false]

/-- The field for an attribute: closed, a literal of the attribute's type, or a picker. -/
theorem attributeField_cases (i : Input) (op : Operator) (a : Attribute) :
    (op.isMulti = true ∧ 0 < i.children ∧ attributeField i op a = disabled) ∨
      ¬(op.isMulti = true ∧ 0 < i.children) ∧
        ((∃ hint, attributeField i op a = literalField i op (valueType a) hint) ∨
          ∃ mode choices, Offers i.entities a mode choices ∧
            attributeField i op a = picker mode i.value choices) := by
  cases hm : op.isMulti with
  | true =>
    rw [attributeField_of_multi hm]
    split
    case isTrue hc => exact .inr ⟨by simp [hc], .inl ⟨_, rfl⟩⟩
    case isFalse hc => exact .inl ⟨rfl, Nat.pos_of_ne_zero hc, rfl⟩
  | false =>
    refine .inr ⟨nofun, (attributeField_cases_of_single hm i a).imp ?_ ?_⟩
    · exact fun h => ⟨none, h i.value⟩
    · rintro ⟨mode, choices, hoffers, h⟩
      exact ⟨mode, choices, hoffers, h i.value⟩

/-- **What the field can be** for an operator. -/
theorem select_cases (h : i.operator = some op) :
    (IsClosed i op ∧ select i = disabled) ∨
      ¬IsClosed i op ∧ ∃ t, type? op i.bound = some t ∧
        ((∃ hint, select i = literalField i op t hint) ∨
          t.carriesGuid = false ∧
            ∃ mode choices, mode.OffersChoices ∧ select i = picker mode i.value choices) := by
  unfold select
  rw [h]
  cases ho : op.operand with
  | none => exact .inl ⟨.inl ho, by simp [ho]⟩
  | some operand =>
    cases operand with
    | fixed t =>
      refine .inr ⟨?_, t, by simp [type?, ho], .inl ⟨none, by simp [ho]⟩⟩
      simp [IsClosed, ho]
    | ofAttribute =>
      cases hb : i.bound with
      | none =>
        refine .inr ⟨?_, .string, by simp [type?, ho], .inl ⟨none, by simp [ho]⟩⟩
        simp [IsClosed, ho, hb]
      | some a =>
        simp only [ho]
        obtain ⟨hm, hc, hfield⟩ | ⟨hopen, hfield⟩ := attributeField_cases i op a
        · exact .inl ⟨.inr ⟨ho, by simp [hb], hm, hc⟩, hfield⟩
        · refine .inr ⟨?_, _, by simp [type?, ho], hfield.imp_right ?_⟩
          · rintro (hnone | ⟨-, -, hclosed⟩)
            · rw [ho] at hnone
              cases hnone
            · exact hopen hclosed
          · rintro ⟨mode, choices, hoffers, hpicker⟩
            exact ⟨hoffers.carriesGuid_eq_false, mode, choices, hoffers.offersChoices, hpicker⟩

theorem mode_select_eq_disabled_iff (h : i.operator = some op) :
    (select i).mode = .disabled ↔ IsClosed i op := by
  obtain ⟨hclosed, hs⟩ | ⟨hopen, t, -, ⟨hint, hs⟩ | ⟨-, mode, choices, hmode, hs⟩⟩ :=
    select_cases h
  · rw [hs]
    exact iff_of_true rfl hclosed
  · rw [hs]
    exact iff_of_false mode_literalField_ne_disabled hopen
  · rw [hs]
    exact iff_of_false hmode.ne_disabled hopen

theorem not_fillsIn_of_isClosed (h : IsClosed i op) : ¬FillsIn op i.bound := by
  rintro ⟨hm, t, ht, -⟩
  obtain hnone | ⟨-, -, hmulti, -⟩ := h
  · simp [type?, hnone] at ht
  · rw [hm] at hmulti
    cases hmulti

/-- **Which value the field shows**: none where it is closed, the identifier of no record in place
of a blank identifier, and else the value at hand. -/
theorem value_select_cases (h : i.operator = some op) :
    (IsClosed i op ∧ (select i).value = "") ∨
      (FillsIn op i.bound ∧ Text.blank i.value = true ∧ (select i).value = Guid.nil.render) ∨
        ¬(FillsIn op i.bound ∧ Text.blank i.value = true) ∧ (select i).value = i.value := by
  obtain ⟨hclosed, hs⟩ | ⟨-, t, ht, ⟨hint, hs⟩ | ⟨hguid, mode, choices, -, hs⟩⟩ := select_cases h
  · exact .inl ⟨hclosed, by rw [hs]; rfl⟩
  · have hfills : FillsIn op i.bound ↔ op.isMulti = false ∧ t.carriesGuid = true := by
      simp [FillsIn, ht]
    right
    rw [hs, value_literalField, hfills]
    split
    case isTrue hv => exact .inl ⟨⟨hv.2.2, hv.1⟩, hv.2.1, rfl⟩
    case isFalse hv => exact .inr ⟨fun hf => hv ⟨hf.1.2, hf.2, hf.1.1⟩, rfl⟩
  · refine .inr (.inr ⟨?_, by rw [hs]; rfl⟩)
    rintro ⟨⟨-, t', ht', hguid'⟩, -⟩
    obtain rfl : t = t' := Option.some.inj (ht.symm.trans ht')
    rw [hguid] at hguid'
    cases hguid'

end ValueField

end QueryEditor
