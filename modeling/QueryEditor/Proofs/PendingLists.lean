import QueryEditor.Proofs.QueryRuns
import QueryEditor.Proofs.SavedCondition
import QueryEditor.Proofs.ValueLists

/-!
# Pending lists and saves

A save takes a pending list apart into value nodes.  It goes by two notions of what is there: the
validation asks for value nodes, the taking apart for anything under the node; and a text counts
as a list when it is not blank, even if no value stands in it.

* `Query.save_keeps_values_iff` : **when a save makes value nodes of a list.**  It does unless the
  text holds nothing but commas and white space; such a text is thrown away
  (`Query.save_loses_commas`).
* `Query.save_leaves_pending_iff` : **when a save leaves a list pending.**  It does exactly where
  something stands under the condition and none of it is a value node
  (`Query.save_leaves_list_beside_filter`).
-/

namespace QueryEditor

namespace Query

variable {q : Query} {node : Nat} {c : Condition} {attributes : Option (List Attribute)}
  {op : Operator} {s : Saved}

/-- A list that passes the validation before a save does not stand beside value nodes. -/
theorem values_eq_nil_of_save (h : q.save node c attributes = .ok s)
    (hop : Operator.find? c.operator = some op) (hp : op.hasPendingList c.value = true) :
    q.values node = [] := by
  obtain ⟨hm, hb⟩ : op.isMulti = true ∧ Text.blank c.value = false := by
    simpa [Operator.hasPendingList] using hp
  obtain ⟨hpass, -⟩ := save_eq_ok_iff.1 h
  obtain ⟨-, op', hop', hchecks⟩ := Condition.validate_passes_iff.1 hpass
  obtain rfl : op = op' := Option.some.inj (hop.symm.trans hop')
  by_contra hvalues
  have hvalue := (Check.withOperator_eq_nil_iff.1 hchecks).2.1
  have hblank := Check.blank_of_value_beside_nodes (Operator.mem_table_of_find? hop) hm
    (List.length_pos_iff.2 hvalues) hvalue
  rw [hb] at hblank
  cases hblank

/-! ### Lists without a value -/

/-- **When a save makes value nodes of a list.**  The condition holds a text, its operator takes
several values and nothing stands under it.  If it is saved there is a value node under it exactly
when the text holds something besides commas and white space.  If it does not, the query stays as
it is and the text is gone. -/
theorem save_keeps_values_iff (hn : node < q.size) (hc : q.children node = [])
    (hop : Operator.find? c.operator = some op) (hm : op.isMulti = true)
    (hb : Text.blank c.value = false) (h : q.save node c attributes = .ok s) :
    (s.query.values node ≠ [] ↔ ∃ x ∈ c.value.toList, x ≠ ',' ∧ Text.isBlank x = false) ∧
      (s.query.values node = [] → s.query = q ∧ s.condition = { c with value := "" }) := by
  obtain ⟨-, op', hop', hs⟩ := save_eq_ok_iff.1 h
  obtain rfl : op = op' := Option.some.inj (hop.symm.trans hop')
  rw [unpack_eq_addValues (by simp [Operator.hasPendingList, hm, hb]) hc] at hs
  have hvalues : s.query.values node = ValueList.split c.value := by
    rw [hs, values_addValues hn, values_eq_nil hc, List.nil_append]
  rw [hvalues]
  constructor
  · rw [ne_eq, ValueList.split_eq_nil_iff]
    push Not
    simp only [Bool.not_eq_true]
  · intro hnil
    rw [hs, hnil]
    exact ⟨rfl, rfl⟩

/-- A query on accounts with a condition on numbers at node 2. -/
def numbersQuery (text : String) : Query :=
  (ofEntity "account").add root (.condition (numbers text))
where
  /-- A condition with a list of numbers. -/
  numbers (text : String) : Condition :=
    { attributeName := "numberofemployees", operator := "in", value := text }

/-- The attribute that the condition names. -/
def numberAttribute : Option (List Attribute) :=
  some [{ logicalName := "numberofemployees", type := .integer }]

open numbersQuery (numbers)

/-- A blank piece between two numbers is dropped, and the numbers are kept. -/
theorem save_keeps_values_of_numbers : ∃ s op,
    2 < (numbersQuery "1, ,2").size ∧ (numbersQuery "1, ,2").children 2 = [] ∧
      Operator.find? (numbers "1, ,2").operator = some op ∧ op.isMulti = true ∧
      Text.blank (numbers "1, ,2").value = false ∧
      (numbersQuery "1, ,2").save 2 (numbers "1, ,2") numberAttribute = .ok s ∧
      s.query.values 2 ≠ [] := by
  have hn : 2 < (numbersQuery "1, ,2").size := by decide
  have hc : (numbersQuery "1, ,2").children 2 = [] := by decide
  have hop : Operator.find? (numbers "1, ,2").operator = some _ := rfl
  have hb : Text.blank (numbers "1, ,2").value = false := by decide
  have hsaved : (numbersQuery "1, ,2").save 2 (numbers "1, ,2") numberAttribute = .ok _ := rfl
  have hkeeps := save_keeps_values_iff hn hc hop rfl hb hsaved
  exact ⟨_, _, hn, hc, hop, rfl, hb, hsaved, hkeeps.1.2 ⟨'1', by decide, by decide, by decide⟩⟩

/-- **A save that throws a text away**: it is a list without a value, the condition has no value
nodes afterwards, and its text is empty. -/
theorem save_loses_commas : ∃ s op,
    (numbersQuery ",").Reachable ∧ (numbersQuery ",").condition? 2 = some (numbers ",") ∧
      (numbersQuery ",").children 2 = [] ∧
      Operator.find? (numbers ",").operator = some op ∧ op.isMulti = true ∧
      Text.blank (numbers ",").value = false ∧
      (numbersQuery ",").save 2 (numbers ",") numberAttribute = .ok s ∧
      s.query.values 2 = [] ∧ s.condition.value = "" :=
  ⟨_, _, .add root (by decide) trivial (.ofEntity "account"), rfl, by decide, rfl, rfl, by decide,
    rfl, by decide, rfl⟩

/-! ### Lists that stay -/

/-- **When a save leaves a list pending.**  If a condition is saved, the text that is left is a
pending list exactly when the text before was one and something stands under the condition, but no
value node. -/
theorem save_leaves_pending_iff (h : q.save node c attributes = .ok s) :
    ∃ op, Operator.find? c.operator = some op ∧
      (op.hasPendingList s.condition.value = true ↔
        op.hasPendingList c.value = true ∧ q.children node ≠ [] ∧ q.values node = []) := by
  obtain ⟨-, op, hop, hs⟩ := save_eq_ok_iff.1 h
  refine ⟨op, hop, ?_⟩
  cases hp : op.hasPendingList c.value with
  | false =>
    rw [hs, unpack_eq_self (.inl hp)]
    simp [hp]
  | true =>
    have hvalues := values_eq_nil_of_save h hop hp
    by_cases hc : q.children node = []
    · rw [hs, unpack_eq_addValues hp hc]
      simp [Operator.hasPendingList, Text.blank, hc]
    · rw [hs, unpack_eq_self (.inr hc)]
      simp [hp, hc, hvalues]

/-- With nothing under the condition the list is taken apart. -/
theorem save_leaves_pending_of_numbers : ∃ s op,
    (numbersQuery "1,2").save 2 (numbers "1,2") numberAttribute = .ok s ∧
      Operator.find? (numbers "1,2").operator = some op ∧
      op.hasPendingList (numbers "1,2").value = true ∧
      op.hasPendingList s.condition.value = false := by
  have hsaved : (numbersQuery "1,2").save 2 (numbers "1,2") numberAttribute = .ok _ := rfl
  obtain ⟨op, hop, hiff⟩ := save_leaves_pending_iff hsaved
  refine ⟨_, op, hsaved, hop, ?_, ?_⟩
  · cases hop
    decide
  · have hc : (numbersQuery "1,2").children 2 = [] := by decide
    rw [← Bool.not_eq_true, hiff]
    exact fun h => h.2.1 hc

/-- **A save that leaves a list pending**: with a filter under the condition the validation finds
no value nodes and the list is in order, and then it is not taken apart. -/
theorem save_leaves_list_beside_filter : ∃ s op,
    ((numbersQuery "1,2").add 2 .filter).Reachable ∧
      ((numbersQuery "1,2").add 2 .filter).condition? 2 = some (numbers "1,2") ∧
      ((numbersQuery "1,2").add 2 .filter).save 2 (numbers "1,2") numberAttribute = .ok s ∧
      Operator.find? (numbers "1,2").operator = some op ∧
      s.created = 0 ∧ s.condition.value = "1,2" ∧
      op.hasPendingList s.condition.value = true :=
  ⟨_, _, .add 2 (by decide) trivial (.add root (by decide) trivial (.ofEntity "account")), rfl,
    rfl, rfl, rfl, rfl, by decide⟩

end Query

end QueryEditor
