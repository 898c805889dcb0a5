import Mathlib.Data.List.Nodup
import QueryEditor.Proofs.Numerals
import QueryEditor.Proofs.Validation

/-!
# Where the value of a condition comes from

A condition gets its value from its text, from another column or from value nodes, and from one
of them only.  The checks keep the text and the column apart for every operator.  They keep the
text and the value nodes apart by the operator and not by the nodes: the text has to be blank where
the operator takes several values or none, and any other operator checks text and nodes each for
themselves.

* `Check.blank_or_blank_of_value_eq_none` : a text and a column do not pass together.
* `Condition.errors_twice_eq_nil` : a literal that suits the operator passes twice, as the text and
  as a value node.
* `Condition.passes_beside_nodes_iff` : **for which operators the text of a condition that passes
  is blank beside value nodes.**  Comparisons are not among them
  (`Condition.passes_beside_nodes_of_number`).
-/

namespace QueryEditor

/-! ### Texts that pass -/

namespace Check

variable {op : Operator} {a : Option Attribute} {text valueOf : String} {n : Nat}

/-- A text and a column to compare with do not pass together. -/
theorem blank_or_blank_of_value_eq_none (h : value op a text valueOf n = none) :
    Text.blank text = true ∨ Text.blank valueOf = true := by
  cases hv : Text.blank valueOf with
  | true => exact .inr rfl
  | false => exact .inl (blank_of_value_eq_none hv h)

/-- Only a blank text passes where the operator takes no value. -/
theorem blank_of_operand_eq_none (hop : op ∈ Operator.table) (ho : op.operand = none)
    (h : value op a text valueOf n = none) : Text.blank text = true := by
  obtain ht | hv := blank_or_blank_of_value_eq_none h
  · exact ht
  · by_contra ht
    have hm := Operator.isMulti_eq_false_of_operand_eq_none op hop ho
    have hp := Operator.isPattern_eq_false_of_operand_eq_none op hop ho
    have htype : literalType op a = none := Option.map_eq_none_iff.2 ho
    rw [value_of_blank hv (by simp [applies, hm]) (.inl hp), htype, ite_self,
      literal_none_of_not_blank (by simpa using ht)] at h
    cases h

end Check

/-! ### A literal for each operator -/

namespace Operator

variable {op : Operator}

/-- A literal that suits the operator while its attribute is not known. -/
def sample (op : Operator) : String :=
  match op.operand with
  | some (.fixed .dateTime) => "2024-02-29"
  | some (.fixed .uniqueidentifier) => Guid.nil.render
  | _ => "7"

theorem blank_sample (op : Operator) : Text.blank op.sample = false := by
  unfold sample
  split <;> decide

theorem hasOpenRange_sample (op : Operator) : Literal.hasOpenRange op.sample = false := by
  unfold sample
  split <;> decide

/-- What the operators of the table compare with. -/
theorem operand_cases : ∀ op ∈ table, op.operand = none ∨ op.operand = some .ofAttribute ∨
    ∃ t ∈ [.string, .dateTime, .integer, .uniqueidentifier], op.operand = some (.fixed t) := by
  decide

theorem literal_sample (hop : op ∈ table) (ho : op.operand ≠ none) :
    Check.literal op (Check.literalType op none) op.sample = none := by
  have hreject : Literal.rejection? (Check.literalType op none) op.sample = none := by
    unfold Check.literalType sample
    obtain hnone | hattribute | ⟨t, ht, hfixed⟩ := operand_cases op hop
    · exact absurd hnone ho
    · rw [hattribute]
      decide
    · obtain rfl | rfl | rfl | rfl :
          t = .string ∨ t = .dateTime ∨ t = .integer ∨ t = .uniqueidentifier := by
        simpa using ht
      all_goals rw [hfixed]; decide
  rw [Check.literal, hreject]
  rfl

/-! ### The symbols of the table -/

theorem trim_of_no_blank {cs : List Char} (h : cs.all (fun c => !Text.isBlank c) = true) :
    Text.trim (String.ofList cs) = String.ofList cs := by
  rw [Text.trim, String.toList_ofList, Text.trimmed_of_no_blank]
  simpa using h

/-- No symbol has white space around it. -/
theorem trim_symbol : ∀ op ∈ table, Text.trim op.symbol = op.symbol := by
  simp only [table, List.forall_mem_cons, List.not_mem_nil, false_implies, implies_true, and_true]
  and_intros
  all_goals exact trim_of_no_blank (by decide)

/-- No two operators have the same symbol. -/
theorem nodup_symbols : (table.map (·.symbol)).Nodup := by
  simp [table, comparison, membership, test, onText, onDate, withDate, withCount, onReference,
    withGuid]

/-- Every operator is found by its symbol. -/
theorem find?_symbol (hop : op ∈ table) : find? op.symbol = some op := by
  obtain ⟨other, hfind⟩ : ∃ other, find? op.symbol = some other :=
    Option.isSome_iff_exists.1 (List.find?_isSome.2 ⟨op, hop, by simp [trim_symbol op hop]⟩)
  have hsymbol : other.symbol = op.symbol := by
    simpa [trim_symbol op hop] using List.find?_some hfind
  rw [hfind, List.inj_on_of_nodup_map nodup_symbols (List.mem_of_find?_eq_some hfind) hop hsymbol]

end Operator

/-! ### Conditions that pass -/

namespace Condition

variable {op : Operator} {c : Condition} {attributes : Option (List Attribute)}
  {values : List String} {strict : Bool}

/-- The check of the value finds nothing in a condition that passes. -/
theorem value_eq_none_of_errors_eq_nil (hop : Operator.find? c.operator = some op)
    (h : (c.validate attributes values strict).errors = []) :
    Check.value op (c.attribute? attributes) c.value c.valueOf values.length = none := by
  obtain ⟨-, op', hop', hchecks⟩ := validate_passes_iff.1 (Report.errors_eq_nil_iff.1 h)
  obtain rfl : op = op' := Option.some.inj (hop.symm.trans hop')
  exact (Check.withOperator_eq_nil_iff.1 hchecks).2.1

/-- A condition with a literal of its operator as its text. -/
def sampled (op : Operator) : Condition :=
  { attributeName := "name", operator := op.symbol, value := op.sample }

/-- **A literal that suits an operator for a single value passes twice**, as the text and as the
value node beside it. -/
theorem errors_twice_eq_nil (hop : op ∈ Operator.table) (hm : op.isMulti = false)
    (ho : op.operand ≠ none) (strict : Bool) :
    ((sampled op).validate none [op.sample] strict).errors = [] := by
  have hliteral := Operator.literal_sample hop ho
  have hvalue : Check.value op none op.sample "" 1 = none := by
    rw [Check.value_of_blank (by decide) (by simp [Check.applies, hm])
      (.inr op.hasOpenRange_sample), if_neg (by simp [hm])]
    exact hliteral
  have hcompatible : Check.compatibility op none 1 = none := by
    unfold Check.compatibility
    split
    · contradiction
    · rfl
  rw [Report.errors_eq_nil_iff, validate_passes_iff]
  have hname : Text.blank "name" = false := by decide
  refine ⟨hname, op, Operator.find?_symbol hop, ?_⟩
  rw [Check.withOperator_eq_nil_iff]
  exact ⟨hcompatible, hvalue, by simp [Check.valueNodes, attribute?, hliteral], by simp⟩

/-- **For which operators the text of a condition that passes is blank beside value nodes.**  With
every operator, the text of a condition that passes or the column that it compares with is blank.
That the text is blank as soon as there are value nodes holds exactly for the operators that take
several values or none. -/
theorem passes_beside_nodes_iff (hop : op ∈ Operator.table) :
    (∀ (c : Condition) attributes values strict, Operator.find? c.operator = some op →
        (c.validate attributes values strict).errors = [] →
          Text.blank c.value = true ∨ Text.blank c.valueOf = true) ∧
      ((∀ (c : Condition) attributes values strict, Operator.find? c.operator = some op →
          (c.validate attributes values strict).errors = [] →
            values ≠ [] → Text.blank c.value = true) ↔
        op.isMulti = true ∨ op.operand = none) := by
  refine ⟨fun c attributes values strict hfind h => ?_, fun hall => ?_, ?_⟩
  · exact Check.blank_or_blank_of_value_eq_none (value_eq_none_of_errors_eq_nil hfind h)
  · by_contra hsingle
    obtain ⟨hm, ho⟩ := not_or.1 hsingle
    have hpasses := errors_twice_eq_nil hop (by simpa using hm) ho true
    have hblank := hall (sampled op) none [op.sample] true (Operator.find?_symbol hop) hpasses
      (List.cons_ne_nil _ _)
    rw [sampled, op.blank_sample] at hblank
    cases hblank
  · rintro (hm | ho) c attributes values strict hfind h hnodes
    · exact Check.blank_of_value_beside_nodes hop hm (List.length_pos_iff.2 hnodes)
        (value_eq_none_of_errors_eq_nil hfind h)
    · exact Check.blank_of_operand_eq_none hop ho (value_eq_none_of_errors_eq_nil hfind h)

/-- The text of a list of numbers that passes beside its value nodes is blank, and so is its
column. -/
theorem passes_beside_nodes_of_list :
    let c : Condition := { attributeName := "numberofemployees", operator := " in ", value := " " }
    let numbers := some [({ logicalName := "numberofemployees", type := .integer } : Attribute)]
    Operator.membership "in" ∈ Operator.table ∧
      Operator.find? c.operator = some (Operator.membership "in") ∧
      (c.validate numbers ["1", "2"] true).errors = [] ∧ Text.blank c.value = true ∧
      (Text.blank c.value = true ∨ Text.blank c.valueOf = true) := by
  intro c numbers
  have hop : Operator.membership "in" ∈ Operator.table := by decide
  have hfind : Operator.find? c.operator = some (Operator.membership "in") := by decide
  have h : (c.validate numbers ["1", "2"] true).errors = [] := by decide
  obtain ⟨hcolumn, hnodes⟩ := passes_beside_nodes_iff hop
  exact ⟨hop, hfind, h, hnodes.2 (.inl rfl) c numbers _ true hfind h (by decide),
    hcolumn c numbers _ true hfind h⟩

/-- **A condition with two sources that passes**: a number is compared with a number typed and with
another in a value node. -/
theorem passes_beside_nodes_of_number :
    let c : Condition := { attributeName := "numberofemployees", operator := "eq", value := "3" }
    let numbers := some [({ logicalName := "numberofemployees", type := .integer } : Attribute)]
    (c.validate numbers ["1"] true).issues = [] ∧ (c.validate numbers ["1"] false).issues = [] ∧
      Text.blank c.value = false := by
  decide

end Condition

end QueryEditor
