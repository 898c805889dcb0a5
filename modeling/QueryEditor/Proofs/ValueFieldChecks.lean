import QueryEditor.Proofs.ValueFieldCases
import QueryEditor.Proofs.Validation

/-!
# The value field and the checks

The value field decides for itself what may be typed, apart from the checks of a condition.

* `ValueField.disabled_iff_refusesText_iff` : **where the field is disabled and where the checks
  refuse every text.**  The two differ on operators that take several values once there are value
  nodes, unless the operand is of the type of a known attribute; there the field stays open
  (`ValueField.list_open_beside_nodes`).
* `Condition.shown_passes_iff` : **when showing the field of a condition that passes leaves one
  that passes.**  It does unless the condition compares with a column and the field fills in an
  identifier, as it does not look at the column (`Condition.shown_conflicts_with_column`).
-/

namespace QueryEditor

/-! ### Texts that no literal may be -/

namespace Check

variable {op : Operator} {a : Option Attribute} {text valueOf : String} {n : Nat}

/-- The check of the value turns away every text that is typed, whatever it is. -/
def RefusesText (op : Operator) (a : Option Attribute) (children : Nat) : Prop :=
  ∀ text valueOf, Text.blank text = false → Text.blank valueOf = true →
    value op a text valueOf children = some (.rejectedLiteral op.symbol .unexpected)

theorem rejectionAs?_ne_unexpected (t : AttributeType) (text : String) :
    Literal.rejectionAs? t text ≠ some .unexpected := by
  have hunless : ∀ passes why, why ≠ .unexpected →
      Literal.rejectUnless passes why ≠ some .unexpected := by
    intro passes why hne
    cases passes <;> simp [Literal.rejectUnless, hne]
  cases t
  case string | memo | virtual | managedProperty => exact (Option.some_ne_none _).symm
  case partyList | calendarRules => simp [Literal.rejectionAs?]
  all_goals exact hunless _ _ (by decide)

/-- Where a type is given a literal is turned away for its form only. -/
theorem literal_some_ne_unexpected (t : AttributeType) (text : String) :
    literal op (some t) text ≠ some (.rejectedLiteral op.symbol .unexpected) := by
  intro h
  obtain ⟨why, hwhy, hsame⟩ := Option.map_eq_some_iff.1 h
  obtain rfl : why = .unexpected := by simpa using hsame
  exact rejectionAs?_ne_unexpected t text hwhy

theorem literalType_eq_none_iff : literalType op a = none ↔ op.operand = none :=
  Option.map_eq_none_iff

/-- The checks refuse every text where the operator takes no value or its values stand in
nodes. -/
theorem refusesText_iff (hop : op ∈ Operator.table) :
    RefusesText op a n ↔ op.operand = none ∨ op.isMulti = true ∧ 0 < n := by
  constructor
  · -- the text that tells is any that leaves no range open
    intro h
    have hx := h "x" "" (by decide) (by decide)
    by_cases happlies : applies op n = true
    case neg =>
      rw [value_of_not_applies (by decide) (by simpa using happlies)] at hx
      cases hx
    case pos =>
      rw [value_of_blank (by decide) happlies (.inr (by decide))] at hx
      by_cases hm : op.isMulti = true
      · exact .inr ⟨hm, by simpa [applies, hm] using happlies⟩
      · rw [if_neg hm] at hx
        cases ht : literalType op a with
        | none => exact .inl (literalType_eq_none_iff.1 ht)
        | some t =>
          rw [ht] at hx
          exact absurd hx (literal_some_ne_unexpected t "x")
  · rintro (ho | ⟨hm, hn⟩) text valueOf htext hv
    · have hm := Operator.isMulti_eq_false_of_operand_eq_none op hop ho
      have hp := Operator.isPattern_eq_false_of_operand_eq_none op hop ho
      rw [value_of_blank hv (by simp [applies, hm]) (.inl hp), literalType_eq_none_iff.2 ho,
        ite_self]
      exact literal_none_of_not_blank htext
    · have hp := Operator.isPattern_eq_false_of_isMulti op hop hm
      rw [value_of_blank hv (by simp [applies, hn]) (.inl hp), if_pos hm]
      exact literal_none_of_not_blank htext

end Check

namespace ValueField

variable {i : Input} {op : Operator}

/-- **Where the field is disabled and where the checks refuse every text**: this is the same for an
operator of the table unless it takes several values, there are value nodes, and its operand is
not of the type of an attribute that is known. -/
theorem disabled_iff_refusesText_iff (hop : op ∈ Operator.table) (hi : i.operator = some op) :
    (((select i).mode = .disabled ∧ (select i).value = "") ↔
        Check.RefusesText op i.bound i.children) ↔
      (op.isMulti = true → 0 < i.children → op.operand = some .ofAttribute ∧ i.bound.isSome) := by
  have hmode := mode_select_eq_disabled_iff hi
  have hdisabled : ((select i).mode = .disabled ∧ (select i).value = "") ↔ IsClosed i op := by
    rw [hmode]
    refine ⟨And.left, fun hclosed => ⟨hclosed, ?_⟩⟩
    obtain ⟨-, hs⟩ | ⟨hopen, -⟩ := select_cases hi
    · rw [hs]
      rfl
    · exact absurd hclosed hopen
  rw [hdisabled, Check.refusesText_iff hop]
  constructor
  · intro h hm hn
    obtain hnone | ⟨ho, hb, -, -⟩ := h.2 (.inr ⟨hm, hn⟩)
    · have := Operator.isMulti_eq_false_of_operand_eq_none op hop hnone
      rw [hm] at this
      cases this
    · exact ⟨ho, hb⟩
  · intro h
    refine or_congr_right ⟨fun hc => hc.2.2, fun ⟨hm, hn⟩ => ?_⟩
    obtain ⟨ho, hb⟩ := h hm hn
    exact ⟨ho, hb, hm, hn⟩

/-- A list of whole numbers whose values stand in nodes. -/
def numberedList : Input where
  operator := Operator.find? "in"
  bound := some { logicalName := "number", type := .integer }
  value := "1, 2"
  children := 2
  target := ""
  enclosing := some "account"
  entities := none
  useLookup := false

/-- The field of a list of whole numbers is disabled beside value nodes, where the checks refuse
every text. -/
theorem disabled_iff_refusesText_of_numberedList :
    ∃ op ∈ Operator.table, numberedList.operator = some op ∧
      (select numberedList).mode = .disabled ∧ (select numberedList).value = "" ∧
      Check.RefusesText op numberedList.bound numberedList.children := by
  have hop : Operator.membership "in" ∈ Operator.table := by decide
  have hi : numberedList.operator = some (Operator.membership "in") := by decide +kernel
  have hmode : (select numberedList).mode = .disabled := by decide +kernel
  have hvalue : (select numberedList).value = "" := by decide +kernel
  refine ⟨_, hop, hi, hmode, hvalue, ?_⟩
  exact ((disabled_iff_refusesText_iff hop hi).2 fun _ _ => ⟨rfl, rfl⟩).1 ⟨hmode, hvalue⟩

/-- The same list while its attribute is not known. -/
def unboundList : Input := { numberedList with bound := none }

/-- A list of fiscal periods of a date. -/
def fiscalList : Input :=
  { numberedList with
    operator := Operator.find? "in-fiscal-period-and-year"
    bound := some { logicalName := "period", type := .dateTime } }

/-- **A field that stays open beside value nodes**: while the attribute is not known, and for
fiscal periods even when it is, the list can still be typed, and the checks refuse every text. -/
theorem list_open_beside_nodes :
    (∃ op ∈ Operator.table, unboundList.operator = some op ∧
        (select unboundList).mode = .freeText ∧ (select unboundList).value = "1, 2" ∧
        Check.RefusesText op unboundList.bound unboundList.children) ∧
      ∃ op ∈ Operator.table, fiscalList.operator = some op ∧
        (select fiscalList).mode = .freeText ∧ (select fiscalList).value = "1, 2" ∧
        Check.RefusesText op fiscalList.bound fiscalList.children := by
  have hin : Operator.membership "in" ∈ Operator.table := by decide
  have hfiscal : { Operator.withCount "in-fiscal-period-and-year" with isMulti := true } ∈
      Operator.table := by decide
  constructor
  · refine ⟨_, hin, by decide +kernel, by decide +kernel, by decide +kernel, ?_⟩
    exact (Check.refusesText_iff hin).2 (.inr ⟨rfl, by decide⟩)
  · refine ⟨_, hfiscal, by decide +kernel, by decide +kernel, by decide +kernel, ?_⟩
    exact (Check.refusesText_iff hfiscal).2 (.inr ⟨rfl, by decide⟩)

end ValueField

/-! ### Showing the field of a condition -/

namespace Check

variable {op : Operator} {a : Option Attribute} {valueOf : String} {n : Nat}

theorem rejectionAs?_of_carriesGuid {t : AttributeType} (ht : t.carriesGuid = true)
    (text : String) :
    Literal.rejectionAs? t text = Literal.rejectUnless (Guid.literal? text).isSome .guid := by
  cases t
  case lookup | customer | owner | uniqueidentifier => rfl
  all_goals cases ht

/-- The identifier of no record is a literal wherever the field fills it in. -/
theorem literal_nil (h : ValueField.FillsIn op a) :
    literal op (literalType op a) Guid.nil.render = none := by
  have hguid : (Guid.literal? Guid.nil.render).isSome := by decide +kernel
  have hcarries : ∀ t, t.carriesGuid = true → literal op (some t) Guid.nil.render = none := by
    intro t ht
    simp [literal, Literal.rejection?, rejectionAs?_of_carriesGuid ht, Literal.rejectUnless, hguid]
  obtain ⟨-, t, ht, hcarry⟩ := h
  unfold ValueField.type? at ht
  unfold literalType
  cases ho : op.operand with
  | none => simp [ho] at ht
  | some operand =>
    cases operand with
    | fixed t' =>
      obtain rfl : t' = t := by simpa [ho] using ht
      exact hcarries _ hcarry
    | ofAttribute =>
      cases a with
      | none =>
        obtain rfl : .string = t := by simpa [ho] using ht
        cases hcarry
      | some a =>
        obtain rfl : ValueField.valueType a = t := by simpa [ho] using ht
        by_cases hm : a.type = .managedProperty
        · -- the field looks inside the managed property, the check takes any text
          simp [literal, Literal.rejection?, Literal.rejectionAs?, hm]
        · rw [ValueField.valueType_of_ne hm] at hcarry
          exact hcarries a.type hcarry

/-- The identifier of no record passes unless there is a column to compare with. -/
theorem value_nil_eq_none_iff (h : ValueField.FillsIn op a) :
    value op a Guid.nil.render valueOf n = none ↔ Text.blank valueOf = true := by
  have hnil : Text.blank Guid.nil.render = false := by decide +kernel
  constructor
  · intro hnone
    by_contra hv
    have := blank_of_value_eq_none (by simpa using hv) hnone
    rw [hnil] at this
    cases this
  · intro hv
    rw [value_of_blank hv (by simp [applies, h.1]) (.inr (by decide +kernel)),
      if_neg (by simp [h.1])]
    exact literal_nil h

end Check

namespace Condition

variable {c : Condition} {attributes : Option (List Attribute)} {values : List String}
  {strict : Bool} {op : Operator}

/-- What the value field of a condition depends on. -/
def fieldInput (c : Condition) (attributes : Option (List Attribute)) (values : List String)
    (target : String) (enclosing : Option String) (entities : Option (List Entity))
    (useLookup : Bool) : ValueField.Input where
  operator := Operator.find? c.operator
  bound := c.attribute? attributes
  value := c.value
  children := values.length
  target := target
  enclosing := enclosing
  entities := entities
  useLookup := useLookup

/-- A condition that passes still passes with another value if the checks that look at the value
find nothing. -/
theorem withValue_passes_iff (hop : Operator.find? c.operator = some op)
    (h : (c.validate attributes values strict).blocksSave = false) (text : String) :
    ({ c with value := text }.validate attributes values strict).blocksSave = false ↔
      Check.value op (c.attribute? attributes) text c.valueOf values.length = none ∧
        (strict = true → values = [] →
          Check.pendingList op (c.attribute? attributes) text = []) := by
  obtain ⟨hname, op', hop', hchecks⟩ := validate_passes_iff.1 h
  obtain rfl : op = op' := Option.some.inj (hop.symm.trans hop')
  obtain ⟨hcompatible, -, hnodes, -⟩ := Check.withOperator_eq_nil_iff.1 hchecks
  rw [validate_passes_iff]
  constructor
  · rintro ⟨-, op', hop', hchecks'⟩
    obtain rfl : op = op' := Option.some.inj (hop.symm.trans hop')
    obtain ⟨-, hvalue, -, hpending⟩ := Check.withOperator_eq_nil_iff.1 hchecks'
    exact ⟨hvalue, hpending⟩
  · rintro ⟨hvalue, hpending⟩
    exact ⟨hname, op, hop,
      Check.withOperator_eq_nil_iff.2 ⟨hcompatible, hvalue, hnodes, hpending⟩⟩

/-- **When showing the field of a condition that passes leaves one that passes**: it does unless
the condition compares with a column and the field fills in an identifier. -/
theorem shown_passes_iff (h : (c.validate attributes values strict).errors = [])
    (target : String) (enclosing : Option String) (entities : Option (List Entity))
    (useLookup : Bool) :
    ({ c with value := (ValueField.select
        (c.fieldInput attributes values target enclosing entities useLookup)).value }.validate
          attributes values strict).errors = [] ↔
      (Text.blank c.valueOf = false → ∀ op, Operator.find? c.operator = some op →
        ¬ValueField.FillsIn op (c.attribute? attributes)) := by
  rw [Report.errors_eq_nil_iff] at h ⊢
  obtain ⟨-, op, hop, hchecks⟩ := validate_passes_iff.1 h
  obtain ⟨-, hvalue, -, hpending⟩ := Check.withOperator_eq_nil_iff.1 hchecks
  have hforall : (∀ op, Operator.find? c.operator = some op →
      ¬ValueField.FillsIn op (c.attribute? attributes)) ↔
        ¬ValueField.FillsIn op (c.attribute? attributes) :=
    ⟨fun hall => hall op hop, fun hnot op' hop' => Option.some.inj (hop.symm.trans hop') ▸ hnot⟩
  rw [withValue_passes_iff hop h, hforall]
  have hi : (c.fieldInput attributes values target enclosing entities useLookup).operator =
      some op := by simpa only [fieldInput] using hop
  rcases ValueField.value_select_cases hi with
    ⟨hclosed, hshown⟩ | ⟨hfills, -, hshown⟩ | ⟨hkeeps, hshown⟩
  case inl =>
    -- the field is closed and the value is cleared
    rw [hshown]
    refine iff_of_true ⟨?_, ?_⟩ fun _ => ValueField.not_fillsIn_of_isClosed hclosed
    · exact Check.value_empty (hclosed.imp_right fun hc => hc.2.2.1) _ _
    · simp [Check.pendingList, Text.blank]
  case inr.inl =>
    -- an identifier is filled in, which excludes a column
    replace hfills : ValueField.FillsIn op (c.attribute? attributes) := hfills
    rw [hshown, Check.value_nil_eq_none_iff hfills]
    have hsingle : Check.pendingList op (c.attribute? attributes) Guid.nil.render = [] := by
      simp [Check.pendingList, hfills.1]
    simp [hsingle, hfills]
  case inr.inr =>
    -- the value stays; beside a column it is blank, so that the field would have filled it in
    rw [hshown]
    refine iff_of_true ⟨hvalue, hpending⟩ fun hcolumn hfills => hkeeps ⟨hfills, ?_⟩
    exact Check.blank_of_value_eq_none hcolumn hvalue

/-- An owner, and a managed property with an identifier inside. -/
def identifiers : Option (List Attribute) :=
  some [{ logicalName := "ownerid", type := .owner },
    { logicalName := "solutionid", type := .managedProperty, valueType := some .uniqueidentifier }]

/-- Showing the field of a managed property fills in an identifier, and the condition passes. -/
theorem shown_passes_of_managed :
    let c : Condition := { attributeName := "solutionid", operator := "eq" }
    let field := ValueField.select (c.fieldInput identifiers [] "" (some "account") none true)
    (c.validate identifiers [] true).errors = [] ∧ field.value = Guid.nil.render ∧
      ({ c with value := field.value }.validate identifiers [] true).errors = [] := by
  intro c field
  have h : (c.validate identifiers [] true).errors = [] := by decide +kernel
  refine ⟨h, by decide +kernel, ?_⟩
  exact (shown_passes_iff h "" (some "account") none true).2 fun hv => absurd hv (by decide)

/-- **A field that spoils a condition**: the owner is compared with another column, which is fine
until the field fills in an identifier. -/
theorem shown_conflicts_with_column :
    let c : Condition := { attributeName := "ownerid", operator := "eq", valueOf := "createdby" }
    let field := ValueField.select (c.fieldInput identifiers [] "" (some "account") none false)
    (c.validate identifiers [] true).errors = [] ∧ field.value = Guid.nil.render ∧
      ({ c with value := field.value }.validate identifiers [] true).errors =
        [.conflictingSources] := by
  decide +kernel

end Condition

end QueryEditor
