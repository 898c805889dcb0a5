import Mathlib.Tactic.ByContra
import QueryEditor.Condition.Report

/-!
# When a condition passes

A condition can be saved unless its report holds an error.  Of the checks only those of the
attribute's name and of the operator can give a mere warning, so a condition passes exactly when
its attribute is named, its operator is in the table and no other check finds anything
(`Condition.validate_passes_iff`).  A text that stands beside a column or beside value nodes is
always refused (`Check.blank_of_value_eq_none`, `Check.blank_of_value_beside_nodes`).
-/

namespace QueryEditor

theorem Report.errors_eq_nil_iff {r : Report} : r.errors = [] ↔ r.blocksSave = false := by
  simp [Report.errors, Report.blocksSave]

/-! ### Text -/

theorem Text.trim_of_blank {s : String} (h : Text.blank s = true) : Text.trim s = "" := by
  rw [Text.trim, Text.trimmed_of_all h]

/-! ### Operators -/

theorem Operator.symbol_ne_empty : ∀ op ∈ Operator.table, op.symbol ≠ "" := by decide

theorem Operator.mem_table_of_find? {symbol : String} {op : Operator}
    (h : Operator.find? symbol = some op) : op ∈ Operator.table :=
  List.mem_of_find?_eq_some h

theorem Operator.not_blank_of_find? {symbol : String} {op : Operator}
    (h : Operator.find? symbol = some op) : Text.blank symbol = false := by
  by_contra hb
  have hs : op.symbol = Text.trim symbol := by
    simpa using List.find?_some h
  rw [Text.trim_of_blank (by simpa using hb)] at hs
  exact Operator.symbol_ne_empty op (Operator.mem_table_of_find? h) hs

theorem Operator.isMulti_eq_false_of_operand_eq_none :
    ∀ op ∈ Operator.table, op.operand = none → op.isMulti = false := by decide

theorem Operator.isPattern_eq_false_of_operand_eq_none :
    ∀ op ∈ Operator.table, op.operand = none → op.isPattern = false := by decide

theorem Operator.isPattern_eq_false_of_isMulti :
    ∀ op ∈ Operator.table, op.isMulti = true → op.isPattern = false := by decide

/-! ### The checks that need an operator -/

namespace Check

variable {op : Operator} {a : Option Attribute} {c : Condition} {values : List String}
  {strict : Bool} {i : Issue}

theorem isError_of_mem_compatibility {n : Nat} (h : i ∈ compatibility op a n) :
    i.isError = true := by
  unfold compatibility at h
  split at h
  · split at h
    · cases h
    · cases h; rfl
  · cases h

theorem isError_of_mem_literal {type : Option AttributeType} {text : String}
    (h : i ∈ literal op type text) : i.isError = true := by
  obtain ⟨why, -, rfl⟩ := Option.map_eq_some_iff.1 h
  rfl

theorem isError_of_mem_value {text valueOf : String} {n : Nat}
    (h : i ∈ value op a text valueOf n) : i.isError = true := by
  unfold value at h
  split at h
  · rename_i issue hs
    unfold sources at hs
    split at hs
    · cases hs; cases h; rfl
    · cases hs
  · split at h
    · cases h
    · split at h
      · cases h; rfl
      · exact isError_of_mem_literal h

theorem isError_of_mem_valueNodes (h : i ∈ valueNodes op a values) : i.isError = true := by
  obtain ⟨text, -, hi⟩ := List.mem_filterMap.1 h
  exact isError_of_mem_literal hi

theorem isError_of_mem_pendingList {text : String} (h : i ∈ pendingList op a text) :
    i.isError = true := by
  unfold pendingList at h
  split at h
  · cases h
  · exact isError_of_mem_valueNodes h

/-! ### The check of the value -/

section Value

variable {text valueOf : String} {n : Nat}

/-- Where no type is given every text is turned away. -/
theorem literal_none_of_not_blank (h : Text.blank text = false) :
    literal op none text = some (.rejectedLiteral op.symbol .unexpected) := by
  simp [literal, Literal.rejection?, Literal.rejectUnless, h]

/-- A pending list is not looked at. -/
theorem value_of_not_applies (hv : Text.blank valueOf = true) (h : applies op n = false) :
    value op a text valueOf n = none := by
  have hs : sources text valueOf = none := by simp [sources, hv]
  simp [value, hs, h]

theorem value_of_blank (hv : Text.blank valueOf = true) (happlies : applies op n = true)
    (hpattern : op.isPattern = false ∨ Literal.hasOpenRange text = false) :
    value op a text valueOf n =
      literal op (if op.isMulti then none else literalType op a) text := by
  have hs : sources text valueOf = none := by simp [sources, hv]
  have hp : ¬((op.isPattern && Literal.hasOpenRange text) = true) := by
    rcases hpattern with h | h <;> simp [h]
  simp [value, hs, hv, happlies, hp]

/-- Beside a column only a blank value passes. -/
theorem blank_of_value_eq_none (hv : Text.blank valueOf = false)
    (h : value op a text valueOf n = none) : Text.blank text = true := by
  by_contra ht
  have hs : sources text valueOf = some .conflictingSources := by simp [sources, ht, hv]
  simp [value, hs] at h

/-- Beside value nodes only a blank text passes. -/
theorem blank_of_value_beside_nodes (hop : op ∈ Operator.table) (hm : op.isMulti = true)
    (hn : 0 < n) (h : value op a text valueOf n = none) : Text.blank text = true := by
  by_cases hv : Text.blank valueOf = true
  · by_contra ht
    have hp := Operator.isPattern_eq_false_of_isMulti op hop hm
    rw [value_of_blank hv (by simp [applies, hn]) (.inl hp), if_pos hm,
      literal_none_of_not_blank (by simpa using ht)] at h
    cases h
  · exact blank_of_value_eq_none (by simpa using hv) h

end Value

/-- No value suits every operator that takes none and every one whose values stand in nodes. -/
theorem value_empty (h : op.operand = none ∨ op.isMulti = true) (valueOf : String) (n : Nat) :
    value op a "" valueOf n = none := by
  have hs : sources "" valueOf = none := rfl
  have hr : Literal.hasOpenRange "" = false := rfl
  have hl : literal op none "" = none := rfl
  rcases h with ho | hm
  · simp [value, hs, hr, hl, literalType, ho]
  · simp [value, hs, hr, hl, hm]

/-- No check that needs an operator gives a mere warning. -/
theorem isError_of_mem_withOperator (h : i ∈ withOperator op a c values strict) :
    i.isError = true := by
  simp only [withOperator, List.mem_append, Option.mem_toList] at h
  rcases h with ((h | h) | h) | h
  · exact isError_of_mem_compatibility h
  · exact isError_of_mem_value h
  · exact isError_of_mem_valueNodes h
  · split at h
    · exact isError_of_mem_pendingList h
    · cases h

theorem withOperator_eq_nil_iff :
    withOperator op a c values strict = [] ↔
      compatibility op a values.length = none ∧
        value op a c.value c.valueOf values.length = none ∧ valueNodes op a values = [] ∧
          (strict = true → values = [] → pendingList op a c.value = []) := by
  simp only [withOperator, List.append_eq_nil_iff, Option.toList_eq_nil_iff, and_assoc]
  refine and_congr_right fun _ => and_congr_right fun _ => and_congr_right fun _ => ?_
  cases strict <;> cases values <;> simp

end Check

/-! ### The whole report -/

namespace Condition

variable {c : Condition} {attributes : Option (List Attribute)} {values : List String}
  {strict : Bool}

theorem any_isError_attributeName :
    (Check.attributeName c.attributeName attributes).any (·.isError) =
      Text.blank c.attributeName := by
  unfold Check.attributeName
  split
  · rename_i hb
    rw [hb]
    rfl
  · rename_i hb
    rw [Bool.eq_false_iff.2 hb]
    cases attributes with
    | none => rfl
    | some as =>
      simp only [Option.bind_some]
      split <;> rfl

theorem any_isError_operator :
    (Check.operator c.operator).any (·.isError) = (Operator.find? c.operator).isNone := by
  unfold Check.operator
  cases hf : Operator.find? c.operator with
  | none => split <;> rfl
  | some op =>
    simp only [Operator.not_blank_of_find? hf]
    cases hs : op.isSupported <;> simp [Issue.isError, Issue.severity]

/-- Naming an operator is an error exactly when it is not in the table. -/
theorem operator?_eq_find? : c.operator? = Operator.find? c.operator := by
  rw [operator?, any_isError_operator]
  cases Operator.find? c.operator <;> rfl

/-- **When a condition passes**: its attribute is named, its operator is in the table, and no
check that needs the operator finds anything. -/
theorem validate_passes_iff :
    (c.validate attributes values strict).blocksSave = false ↔
      Text.blank c.attributeName = false ∧ ∃ op, Operator.find? c.operator = some op ∧
        Check.withOperator op (c.attribute? attributes) c values strict = [] := by
  have htoList : ∀ found : Option Issue,
      found.toList.any (·.isError) = found.any (·.isError) := by
    rintro (_ | _) <;> simp
  simp only [Report.blocksSave, validate, operator?_eq_find?, List.any_append,
    Bool.or_eq_false_iff, htoList, any_isError_attributeName, any_isError_operator, and_assoc]
  refine and_congr_right fun _ => ?_
  cases hf : Operator.find? c.operator with
  | none => simp
  | some op =>
    have hall : (Check.withOperator op (c.attribute? attributes) c values strict).any
        (·.isError) = false ↔
          Check.withOperator op (c.attribute? attributes) c values strict = [] := by
      constructor
      · intro h
        refine List.eq_nil_iff_forall_not_mem.2 fun i hi => ?_
        have := List.any_eq_false.1 h i hi
        exact this (Check.isError_of_mem_withOperator hi)
      · intro h
        rw [h]
        rfl
    simpa using hall

end Condition

end QueryEditor
