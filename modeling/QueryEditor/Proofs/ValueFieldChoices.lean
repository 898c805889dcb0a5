import QueryEditor.Proofs.Numerals
import QueryEditor.Proofs.PaddedText
import QueryEditor.Proofs.ValueFieldChecks

/-!
# What the value field offers

The choices of a picker are codes: those of an option set, those of entities, or the two truth
values.  A picker is there for a single value of a type that takes any code, so whatever is picked
passes the checks, and the field stays the same picker with that choice selected.

* `ValueField.picks_of_mem_choices` : a field with choices is a picker of codes, whatever the value
  at hand.
* `ValueField.offers_accepted` : **what the field offers or fills in is accepted, and what is
  picked stays picked.**
-/

namespace QueryEditor

/-! ### Codes as literals -/

/-- A code has no brackets. -/
theorem Literal.hasOpenRange_ofInt32 (n : Int32) : hasOpenRange (Numeral.ofInt32 n) = false := by
  have hnone : (Numeral.ofInt32 n).toList.filter isBracket = [] := by
    refine List.filter_eq_nil_iff.2 fun c hc hbracket => ?_
    obtain rfl | rfl : c = '[' ∨ c = ']' := by simpa [isBracket] using hbracket
    all_goals
      obtain h | h := Numeral.isDigit_or_of_mem_toString _ hc
      · cases h
      · cases h
  rw [hasOpenRange_eq, hnone]
  rfl

/-- The types of which every code is a literal: those backed by codes, and managed properties, of
which every text is one. -/
def AttributeType.TakesCodes (t : AttributeType) : Prop :=
  t.isEnumerated = true ∨ t = .entityName ∨ t = .managedProperty

theorem AttributeType.TakesCodes.rejectionAs?_ofInt32 {t : AttributeType} (h : t.TakesCodes)
    (n : Int32) : Literal.rejectionAs? t (Numeral.ofInt32 n) = none := by
  have hread := Numeral.int32?_trimmed_ofInt32 n
  obtain he | rfl | rfl := h
  · cases t
    case picklist | state | status =>
      simp [Literal.rejectionAs?, Literal.rejectUnless, hread]
    all_goals cases he
  · simp [Literal.rejectionAs?, Literal.rejectUnless, hread]
  · rfl

namespace ValueField

variable {i : Input} {op : Operator} {a : Attribute} {choice : Choice}

/-! ### Fields with choices -/

/-- The choices stand for codes. -/
def AreCodes (choices : List Choice) : Prop :=
  ∀ choice ∈ choices, ∃ n, choice.value = Numeral.ofInt32 n

theorem areCodes_optionChoices (a : Attribute) : AreCodes (optionChoices a) := by
  intro choice h
  obtain ⟨o, -, rfl⟩ := List.mem_map.1 h
  exact ⟨o.value, rfl⟩

theorem areCodes_entityChoices (entities : List Entity) : AreCodes (entityChoices entities) := by
  intro choice h
  obtain ⟨e, -, he⟩ := List.mem_filterMap.1 h
  obtain ⟨code, -, rfl⟩ := Option.map_eq_some_iff.1 he
  exact ⟨code, rfl⟩

theorem areCodes_truthChoices : AreCodes truthChoices := by
  intro choice h
  obtain rfl | rfl : choice = ⟨"0", "False (0)"⟩ ∨ choice = ⟨"1", "True (1)"⟩ := by
    simpa [truthChoices] using h
  · exact ⟨0, by decide⟩
  · exact ⟨1, by decide⟩

/-- The field is a picker with these choices, whatever the value at hand. -/
structure Picks (i : Input) (op : Operator) (a : Attribute) (mode : Mode)
    (choices : List Choice) : Prop where
  operator_eq : i.operator = some op
  bound_eq : i.bound = some a
  /-- The value is of the attribute's type. -/
  operand_eq : op.operand = some .ofAttribute
  isSingle : op.isMulti = false
  takesCodes : a.type.TakesCodes
  areCodes : AreCodes choices
  select_eq : ∀ text, select { i with value := text } = picker mode text choices

theorem choices_literalField {t : AttributeType} {hint : Option String} :
    (literalField i op t hint).choices = [] := by
  unfold literalField forType
  split <;> rfl

/-- Every code is a value of an attribute that has choices. -/
theorem Offers.takesCodes {entities : Option (List Entity)} {mode : Mode} {choices : List Choice}
    (h : Offers entities a mode choices) : a.type.TakesCodes := by
  cases h with
  | options h => exact .inl h
  | entities h => exact .inr (.inl h)
  | truth h => exact .inr (.inr (type_of_managedType? h))

theorem Offers.areCodes {entities : Option (List Entity)} {mode : Mode} {choices : List Choice}
    (h : Offers entities a mode choices) : AreCodes choices := by
  cases h with
  | options => exact areCodes_optionChoices a
  | entities => exact areCodes_entityChoices _
  | truth => exact areCodes_truthChoices

theorem attributeField_choices (i : Input) (op : Operator) (a : Attribute) :
    (attributeField i op a).choices = [] ∨
      op.isMulti = false ∧ a.type.TakesCodes ∧ ∃ mode choices, AreCodes choices ∧
        ∀ text, attributeField { i with value := text } op a = picker mode text choices := by
  cases hm : op.isMulti with
  | true =>
    left
    rw [attributeField_of_multi hm]
    split
    · exact choices_literalField
    · rfl
  | false =>
    obtain h | ⟨mode, choices, hoffers, h⟩ := attributeField_cases_of_single hm i a
    · left
      rw [show attributeField i op a = literalField i op (valueType a) none from h i.value]
      exact choices_literalField
    · exact .inr ⟨rfl, hoffers.takesCodes, mode, choices, hoffers.areCodes, h⟩

theorem select_eq_attributeField (hi : i.operator = some op)
    (ho : op.operand = some .ofAttribute) (hb : i.bound = some a) :
    select i = attributeField i op a := by
  simp [select, hi, ho, hb]

/-- **A field with choices is a picker of codes**, whatever the value at hand. -/
theorem picks_of_mem_choices (h : choice ∈ (select i).choices) :
    ∃ op a mode choices, Picks i op a mode choices := by
  have hne : (select i).choices ≠ [] := List.ne_nil_of_mem h
  cases hi : i.operator with
  | none => simp [select, hi, freeText] at hne
  | some op =>
    cases ho : op.operand with
    | none => simp [select, hi, ho, disabled] at hne
    | some operand =>
      cases operand with
      | fixed t => simp [select, hi, ho, choices_literalField] at hne
      | ofAttribute =>
        cases hb : i.bound with
        | none => simp [select, hi, ho, hb, choices_literalField] at hne
        | some a =>
          rw [select_eq_attributeField hi ho hb] at hne
          obtain hnil | ⟨hm, ht, mode, choices, hcodes, hpick⟩ := attributeField_choices i op a
          · exact absurd hnil hne
          · refine ⟨op, a, mode, choices, hi, hb, ho, hm, ht, hcodes, fun text => ?_⟩
            exact (select_eq_attributeField (i := { i with value := text }) hi ho hb).trans
              (hpick text)

namespace Picks

variable {mode : Mode} {choices : List Choice}

theorem choices_eq (h : Picks i op a mode choices) : (select i).choices = choices := by
  rw [show select i = picker mode i.value choices from h.select_eq i.value]
  rfl

/-- Whatever is picked passes the check of the value. -/
theorem value_eq_none (h : Picks i op a mode choices) (hmem : choice ∈ choices) {valueOf : String}
    (hv : Text.blank valueOf = true) :
    Check.value op i.bound choice.value valueOf i.children = none := by
  obtain ⟨n, hn⟩ := h.areCodes choice hmem
  have htype : Check.literalType op i.bound = some a.type := by
    simp [Check.literalType, h.operand_eq, h.bound_eq]
  rw [Check.value_of_blank hv (by simp [Check.applies, h.isSingle])
    (.inr (hn ▸ Literal.hasOpenRange_ofInt32 n)), if_neg (by simp [h.isSingle]), htype, hn,
    Check.literal, Literal.rejection?, h.takesCodes.rejectionAs?_ofInt32]
  rfl

end Picks

/-! ### What is picked -/

/-- The first choice with this value is the one at `k`. -/
def IsFirst (choices : List Choice) (value : String) (k : Nat) : Prop :=
  ∃ h : k < choices.length, choices[k].value = value ∧ ∀ j, ∀ hj : j < k, choices[j].value ≠ value

theorem exists_isFirst {choices : List Choice} (h : choice ∈ choices) :
    ∃ k, choices.findIdx? (·.value == choice.value) = some k ∧
      IsFirst choices choice.value k := by
  have hsome : (choices.findIdx? (·.value == choice.value)).isSome := by
    rw [List.findIdx?_isSome, List.any_eq_true]
    exact ⟨choice, h, beq_self_eq_true _⟩
  obtain ⟨k, hk⟩ := Option.isSome_iff_exists.1 hsome
  obtain ⟨hlt, heq, hbefore⟩ := List.findIdx?_eq_some_iff_getElem.1 hk
  refine ⟨k, hk, hlt, by simpa using heq, fun j hj => ?_⟩
  simpa using hbefore j hj

/-- **What the field offers or fills in is accepted, and what is picked stays picked.**  Beside no
column, the check of the value accepts every choice that the field offers and every value that it
shows in place of the one at hand.  With the value of a choice the field is the same as before,
except that it shows this value and that the first choice of this value is selected. -/
theorem offers_accepted (i : Input) :
    (∀ op, i.operator = some op → ∀ valueOf, Text.blank valueOf = true →
      (∀ choice ∈ (select i).choices,
        Check.value op i.bound choice.value valueOf i.children = none) ∧
      ((select i).value ≠ i.value →
        Check.value op i.bound (select i).value valueOf i.children = none)) ∧
    ∀ choice ∈ (select i).choices, ∃ k, IsFirst (select i).choices choice.value k ∧
      select { i with value := choice.value } =
        { select i with value := choice.value, selected := some k } := by
  refine ⟨fun op hop valueOf hv => ⟨fun choice hchoice => ?_, fun hne => ?_⟩,
    fun choice hchoice => ?_⟩
  · obtain ⟨op', a, mode, choices, h⟩ := picks_of_mem_choices hchoice
    obtain rfl : op = op' := Option.some.inj (hop.symm.trans h.operator_eq)
    exact h.value_eq_none (h.choices_eq ▸ hchoice) hv
  · obtain ⟨hclosed, hvalue⟩ | ⟨hfills, -, hvalue⟩ | ⟨-, hvalue⟩ := value_select_cases hop
    · rw [hvalue]
      exact Check.value_empty (hclosed.imp_right fun hc => hc.2.2.1) _ _
    · rw [hvalue]
      exact (Check.value_nil_eq_none_iff hfills).2 hv
    · exact absurd hvalue hne
  · obtain ⟨op, a, mode, choices, h⟩ := picks_of_mem_choices hchoice
    rw [h.choices_eq] at hchoice ⊢
    obtain ⟨n, hn⟩ := h.areCodes choice hchoice
    obtain ⟨k, hk, hfirst⟩ := exists_isFirst hchoice
    refine ⟨k, hfirst, ?_⟩
    have hshown : select i = picker mode i.value choices := h.select_eq i.value
    have htrim : Text.trim choice.value = choice.value := hn ▸ Numeral.trim_ofInt32 n
    rw [h.select_eq, hshown]
    simp only [picker, htrim, hk]

/-- The reason of a status, with the lowest code that there is and a code that stands twice. -/
def statusField : Input where
  operator := Operator.find? "eq"
  bound := some
    { logicalName := "statuscode", type := .status
      options := [⟨-2147483648, "Lowest"⟩, ⟨3, "Open"⟩, ⟨3, "Opened"⟩] }
  value := "4"
  children := 0
  target := ""
  enclosing := some "account"
  entities := none
  useLookup := false

/-- The owner of a record, with no value yet. -/
def ownerField : Input :=
  { statusField with bound := some { logicalName := "ownerid", type := .owner }, value := " " }

/-- Every code of the status is accepted, and of two equal ones the first is selected; so is the
identifier that is filled in for the owner. -/
theorem offers_accepted_of_status : ∃ op,
    statusField.operator = some op ∧ Text.blank " " = true ∧
      (⟨"-2147483648", "Lowest (-2147483648)"⟩ : Choice) ∈ (select statusField).choices ∧
      Check.value op statusField.bound "-2147483648" " " 0 = none ∧
      (∃ k, IsFirst (select statusField).choices "3" k ∧
        select { statusField with value := "3" } =
          { select statusField with value := "3", selected := some k }) ∧
      ownerField.operator = some op ∧ (select ownerField).value ≠ ownerField.value ∧
      Check.value op ownerField.bound (select ownerField).value " " 0 = none := by
  have hop : statusField.operator = some (Operator.comparison "eq") := by decide
  have hblank : Text.blank " " = true := by decide
  have hlowest : (⟨"-2147483648", "Lowest (-2147483648)"⟩ : Choice) ∈
      (select statusField).choices := by decide
  have hopened : (⟨"3", "Opened (3)"⟩ : Choice) ∈ (select statusField).choices := by
    decide
  have hfilled : (select ownerField).value ≠ ownerField.value := by decide
  obtain ⟨haccepted, hpicked⟩ := offers_accepted statusField
  exact ⟨_, hop, hblank, hlowest, (haccepted _ hop " " hblank).1 _ hlowest,
    hpicked _ hopened, hop, hfilled, ((offers_accepted ownerField).1 _ hop " " hblank).2 hfilled⟩

end ValueField

end QueryEditor
