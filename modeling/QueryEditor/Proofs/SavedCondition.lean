import QueryEditor.Commit
import QueryEditor.Proofs.QueryTree
import QueryEditor.Proofs.Validation

/-!
# Saved conditions

A save validates the condition strictly and then takes a pending list apart
(`Query.run_commit`, `Query.save_eq_ok_iff`).  What it leaves behind has another shape than what
was validated: the text is blank and the values stand in nodes of their own.

* `Check.withOperator_unpacked` : of the checks that need an operator, only the one of the
  attribute's type can find something in the condition that a save leaves behind, and it can
  only where value nodes were made.
* `Query.save_revalidates_iff` : **when a saved condition can be saved again.**  It can unless
  the save made value nodes for an operator that does not apply to the attribute's type; such
  an operator is only looked at once there are value nodes.
* `Query.save_leaves_type_mismatch` : a save that leaves such a condition behind.
-/

namespace QueryEditor

/-- The operator applies to the attribute, as far as both are known. -/
def Condition.OperatorApplies (c : Condition) (attributes : Option (List Attribute)) : Prop :=
  ∀ op ∈ Operator.find? c.operator, ∀ a ∈ c.attribute? attributes, op.appliesTo a.type = true

variable {q : Query} {node : Nat} {c : Condition} {attributes : Option (List Attribute)}
  {op : Operator} {a : Option Attribute} {text : String}

/-! ### Taking a list apart -/

namespace Query

theorem unpack_eq_self (h : op.hasPendingList text = false ∨ q.children node ≠ []) :
    q.unpack node op text = ⟨q, text, 0⟩ := by
  rw [unpack, if_pos]
  simpa using h

theorem unpack_eq_addValues (hp : op.hasPendingList text = true) (hc : q.children node = []) :
    q.unpack node op text =
      ⟨q.addValues node (ValueList.split text), "", (ValueList.split text).length⟩ := by
  rw [unpack, if_neg]
  simp [hp, hc]

/-- Either nothing happens, or a pending list goes into value nodes of a node without
children. -/
theorem unpack_cases (q : Query) (node : Nat) (op : Operator) (text : String) :
    q.unpack node op text = ⟨q, text, 0⟩ ∨
      (op.isMulti = true ∧ Text.blank text = false ∧ q.children node = [] ∧
        q.unpack node op text =
          ⟨q.addValues node (ValueList.split text), "", (ValueList.split text).length⟩) := by
  by_cases hp : op.hasPendingList text = true
  · by_cases hc : q.children node = []
    · have hm : op.isMulti = true ∧ Text.blank text = false := by
        simpa [Operator.hasPendingList] using hp
      exact .inr ⟨hm.1, hm.2, hc, unpack_eq_addValues hp hc⟩
    · exact .inl (unpack_eq_self (.inr hc))
  · exact .inl (unpack_eq_self (.inl (by simpa using hp)))

/-- What is left after taking a list apart stays as it is the second time. -/
theorem unpack_unpack :
    (q.unpack node op text).query.unpack node op (q.unpack node op text).value =
      ⟨(q.unpack node op text).query, (q.unpack node op text).value, 0⟩ := by
  rcases unpack_cases q node op text with h | ⟨-, -, -, h⟩
  · rw [h]
    exact h
  · rw [h]
    refine unpack_eq_self (.inl ?_)
    simp [Operator.hasPendingList, Text.blank]

/-- **What an attempt to save does.**  A condition that does not pass the strict validation is
answered with the report, and else its pending list is taken apart. -/
theorem run_commit (q : Query) (node : Nat) (c : Condition)
    (attributes : Option (List Attribute)) :
    let report := c.validate attributes (q.values node) true
    (report.blocksSave = true ∧ (commit node attributes).run (q, c) = (.error report, q, c)) ∨
      report.blocksSave = false ∧ ∃ op, Operator.find? c.operator = some op ∧
        (commit node attributes).run (q, c) =
          (.ok { report, created := (q.unpack node op c.value).created },
            (q.unpack node op c.value).query,
            { c with value := (q.unpack node op c.value).value }) := by
  intro report
  -- the run starts with the question whether the report blocks the save
  cases hb : report.blocksSave with
  | true =>
    refine .inl ⟨rfl, ?_⟩
    change (if report.blocksSave then _ else _ : Edit Receipt) (q, c) = _
    rw [if_pos hb]
    rfl
  | false =>
    obtain ⟨-, op, hop, -⟩ := Condition.validate_passes_iff.1 hb
    refine .inr ⟨rfl, op, hop, ?_⟩
    change (if report.blocksSave then _ else _ : Edit Receipt) (q, c) = _
    rw [if_neg (Bool.eq_false_iff.1 hb)]
    dsimp only
    rw [hop]
    rfl

/-- **When a save goes through**: the condition passes the strict validation, and its pending list
is taken apart. -/
theorem save_eq_ok_iff {s : Saved} :
    q.save node c attributes = .ok s ↔
      (c.validate attributes (q.values node) true).blocksSave = false ∧
        ∃ op, Operator.find? c.operator = some op ∧
          s =
            { query := (q.unpack node op c.value).query
              condition := { c with value := (q.unpack node op c.value).value }
              report := c.validate attributes (q.values node) true
              created := (q.unpack node op c.value).created } := by
  rw [save]
  obtain ⟨hb, hrun⟩ | ⟨hb, op, hop, hrun⟩ := run_commit q node c attributes
  · simp [hrun, hb]
  · simp [hrun, hb, hop, eq_comm]

/-- **When a save is refused**: the strict validation finds an error, and the report says so. -/
theorem save_eq_error_iff {r : Report} :
    q.save node c attributes = .error r ↔
      (c.validate attributes (q.values node) true).blocksSave = true ∧
        r = c.validate attributes (q.values node) true := by
  rw [save]
  obtain ⟨hb, hrun⟩ | ⟨hb, op, hop, hrun⟩ := run_commit q node c attributes
  · simp [hrun, hb, eq_comm]
  · simp [hrun, hb]

/-- A refused save leaves query and condition as they are. -/
theorem afterSave_of_error {r : Report} (h : q.save node c attributes = .error r) :
    q.afterSave node c attributes = (q, c) := by
  obtain ⟨-, hrun⟩ | ⟨hb, -⟩ := run_commit q node c attributes
  · rw [afterSave, hrun]
  · rw [(save_eq_error_iff.1 h).1] at hb
    cases hb

theorem afterSave_of_ok {s : Saved} (h : q.save node c attributes = .ok s) :
    q.afterSave node c attributes = (s.query, s.condition) := by
  obtain ⟨hpasses, op, hop, rfl⟩ := save_eq_ok_iff.1 h
  obtain ⟨hb, -⟩ | ⟨-, op', hop', hrun⟩ := run_commit q node c attributes
  · rw [hpasses] at hb
    cases hb
  · obtain rfl : op = op' := Option.some.inj (hop.symm.trans hop')
    rw [afterSave, hrun]

end Query

/-! ### Checking what is left -/

namespace Check

/-- The check of the attribute's type, where it applies. -/
theorem compatibility_eq_none_iff {n : Nat} (h : applies op n = true) :
    compatibility op a n = none ↔ ∀ x ∈ a, op.appliesTo x.type = true := by
  unfold compatibility Operator.appliesTo
  rw [h]
  cases op.attributeType <;> cases a <;> simp

/-- The checks of what taking a list apart leaves of a condition that has passed. -/
theorem withOperator_unpacked (hn : node < q.size)
    (h : withOperator op a c (q.values node) true = []) :
    withOperator op a { c with value := (q.unpack node op c.value).value }
        ((q.unpack node op c.value).query.values node) true =
      if 0 < (q.unpack node op c.value).created then
        (compatibility op a (q.unpack node op c.value).created).toList
      else [] := by
  rcases Query.unpack_cases q node op c.value with hu | ⟨hm, hb, hc, hu⟩
  · rw [hu]
    exact h
  · -- the values were validated while they were a pending list
    have hv : q.values node = [] := Query.values_eq_nil hc
    have hnodes : valueNodes op a (ValueList.split c.value) = [] := by
      have hp := (withOperator_eq_nil_iff.1 h).2.2.2 rfl hv
      simpa [pendingList, hm, hb] using hp
    have hpending : pendingList op a "" = [] := by simp [pendingList, Text.blank]
    rw [hu]
    simp only [withOperator, Query.values_addValues hn, hv, List.nil_append, hnodes, hpending,
      value_empty (.inr hm), ite_self, Option.toList_none, List.append_nil]
    split
    · rfl
    · rename_i hz
      have ha : applies op (ValueList.split c.value).length = false := by
        simp [applies, hm, hz]
      simp [compatibility, ha]

end Check

namespace Query

variable {s : Saved}

/-- Validating what a save leaves behind. -/
theorem validate_saved_passes_iff (hn : node < q.size) (h : q.save node c attributes = .ok s) :
    (s.condition.validate attributes (s.query.values node) true).blocksSave = false ↔
      (0 < s.created → c.OperatorApplies attributes) := by
  obtain ⟨hpass, op, hop, rfl⟩ := save_eq_ok_iff.1 h
  obtain ⟨hname, op', hop', hchecks⟩ := Condition.validate_passes_iff.1 hpass
  obtain rfl : op = op' := Option.some.inj (hop.symm.trans hop')
  rw [Condition.validate_passes_iff]
  have hleft := Check.withOperator_unpacked hn hchecks
  constructor
  · rintro ⟨-, op', hop', hnil⟩ hpos
    obtain rfl : op = op' := Option.some.inj (hop.symm.trans hop')
    change Check.withOperator op (c.attribute? attributes) _ _ true = [] at hnil
    rw [hleft, if_pos hpos, Option.toList_eq_nil_iff] at hnil
    intro op' hop' x hx
    obtain rfl : op = op' := Option.some.inj (hop.symm.trans hop')
    exact (Check.compatibility_eq_none_iff (by simp [Check.applies, hpos])).1 hnil x hx
  · intro happlies
    refine ⟨hname, op, hop, ?_⟩
    change Check.withOperator op (c.attribute? attributes) _ _ true = []
    rw [hleft]
    split
    · rename_i hpos
      rw [Option.toList_eq_nil_iff, Check.compatibility_eq_none_iff (by simp [Check.applies, hpos])]
      exact happlies hpos op hop
    · rfl

/-- What a save leaves behind is not changed by saving it again. -/
theorem save_saved_eq {s' : Saved} (h : q.save node c attributes = .ok s)
    (h' : s.query.save node s.condition attributes = .ok s') :
    s'.query = s.query ∧ s'.condition = s.condition ∧ s'.created = 0 := by
  obtain ⟨-, op, hop, rfl⟩ := save_eq_ok_iff.1 h
  obtain ⟨-, op', hop', rfl⟩ := save_eq_ok_iff.1 h'
  obtain rfl : op = op' := Option.some.inj (hop.symm.trans hop')
  simp [unpack_unpack]

/-- **When a saved condition can be saved again**: it passes the strict validation and the
second save goes through, and changes nothing, unless the first one made value nodes for an
operator that does not apply to the attribute. -/
theorem save_revalidates_iff (hn : node < q.size) (h : q.save node c attributes = .ok s) :
    ((s.condition.validate attributes (s.query.values node) true).errors = [] ↔
        (0 < s.created → c.OperatorApplies attributes)) ∧
      ((∃ s', s.query.save node s.condition attributes = .ok s') ↔
        (0 < s.created → c.OperatorApplies attributes)) ∧
      ∀ s', s.query.save node s.condition attributes = .ok s' →
        s'.query = s.query ∧ s'.condition = s.condition ∧ s'.created = 0 := by
  have hiff := validate_saved_passes_iff hn h
  refine ⟨Report.errors_eq_nil_iff.trans hiff, ?_, fun s' h' => save_saved_eq h h'⟩
  rw [← hiff]
  constructor
  · rintro ⟨s', h'⟩
    exact (save_eq_ok_iff.1 h').1
  · intro hpass
    obtain ⟨-, op, hop, -⟩ := Condition.validate_passes_iff.1 hpass
    exact ⟨_, save_eq_ok_iff.2 ⟨hpass, op, hop, rfl⟩⟩

/-! ### A condition on fiscal periods -/

/-- A query on accounts with a condition at node 2. -/
def fiscalQuery : Query := (ofEntity "account").add root (.condition fiscalCondition)
where
  fiscalCondition : Condition :=
    { attributeName := "period", operator := "in-fiscal-period-and-year", value := "3, 4" }

/-- The attribute that the condition names, with this type. -/
def periodOf (type : AttributeType) : Option (List Attribute) :=
  some [{ logicalName := "period", type }]

open fiscalQuery (fiscalCondition)

/-- On a date the saved condition can be saved again. -/
theorem save_revalidates_on_date : ∃ s,
    2 < fiscalQuery.size ∧ fiscalQuery.save 2 fiscalCondition (periodOf .dateTime) = .ok s ∧
      s.created = 2 ∧ fiscalCondition.OperatorApplies (periodOf .dateTime) ∧
      (s.condition.validate (periodOf .dateTime) (s.query.values 2) true).errors = [] ∧
      ∃ s', s.query.save 2 s.condition (periodOf .dateTime) = .ok s' := by
  have happlies : fiscalCondition.OperatorApplies (periodOf .dateTime) := by
    intro op hop x hx
    cases hop
    cases hx
    rfl
  have hn : 2 < fiscalQuery.size := by decide
  refine ⟨_, hn, rfl, rfl, happlies, ?_, ?_⟩
  · exact (save_revalidates_iff hn rfl).1.2 fun _ => happlies
  · exact (save_revalidates_iff hn rfl).2.1.2 fun _ => happlies

/-- **A save that leaves a condition behind that cannot be saved**: on a text the list is
accepted, and its values are not. -/
theorem save_leaves_type_mismatch : ∃ s,
    fiscalQuery.save 2 fiscalCondition (periodOf .string) = .ok s ∧
      (s.condition.validate (periodOf .string) (s.query.values 2) true).errors =
        [.typeMismatch "in-fiscal-period-and-year" "String"] ∧
      ∀ s', s.query.save 2 s.condition (periodOf .string) ≠ .ok s' := by
  refine ⟨_, rfl, rfl, ?_⟩
  intro s' h
  cases h

end Query

end QueryEditor
