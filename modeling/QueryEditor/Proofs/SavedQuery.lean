import QueryEditor.Proofs.QueryRuns
import QueryEditor.Proofs.SavedCondition

/-!
# What a save changes

A save that is refused changes nothing (`Query.afterSave_of_error`).  One that goes through either
leaves query and condition as they are or moves a pending list into new nodes.

* `Query.SameBut` : what no save touches, with `Query.sameBut_unpack`.
* `Query.Filled` : the new nodes, with `Query.Ordered.filled_addValues`.
* `Query.Reachable.save_effect` : **what a save does to the query and to the condition**, and when
  it is refused.
-/

namespace QueryEditor

namespace Query

variable {q : Query} {node i : Nat} {c : Condition} {attributes : Option (List Attribute)}
  {op : Operator} {text : String} {texts : List String}

/-- The nodes of `q` are the same in `q'`, except that `node` may have other children. -/
structure SameBut (node : Nat) (q q' : Query) : Prop where
  /-- They stand for the same. -/
  kind?_eq : ∀ i < q.size, q'.kind? i = q.kind? i
  /-- They stand under the same node. -/
  parent?_eq : ∀ i < q.size, q'.parent? i = q.parent? i
  /-- The same nodes stand under them. -/
  children_eq : ∀ i < q.size, i ≠ node → q'.children i = q.children i

/-- `q'` has new value nodes for `texts`, in this order, and they are all the children of
`node`. -/
structure Filled (node : Nat) (texts : List String) (q q' : Query) : Prop where
  /-- There is one new node for each text. -/
  size_eq : q'.size = q.size + texts.length
  /-- The new nodes stand under `node`, and no others do. -/
  children_eq : q'.children node = List.range' q.size texts.length
  /-- They hold the texts. -/
  kinds_eq : (q'.children node).map q'.kind? = texts.map fun text => some (.value text)
  /-- Nothing stands under them. -/
  leaves : ∀ i ∈ q'.children node, q'.children i = []

theorem SameBut.refl (node : Nat) (q : Query) : SameBut node q q :=
  ⟨fun _ _ => rfl, fun _ _ => rfl, fun _ _ _ => rfl⟩

theorem sameBut_addValues (hn : node < q.size) : SameBut node q (q.addValues node texts) where
  kind?_eq _ hi := kind?_addValues_of_lt hi
  parent?_eq _ hi := parent?_addValues_of_lt hi
  children_eq i _ hne := by
    rw [children_addValues hn, if_neg hne.symm, List.append_nil]

theorem sameBut_unpack (hn : node < q.size) :
    SameBut node q (q.unpack node op text).query := by
  obtain h | ⟨-, -, -, h⟩ := unpack_cases q node op text
  · rw [h]
    exact .refl node q
  · rw [h]
    exact sameBut_addValues hn

theorem Ordered.filled_addValues (hq : q.Ordered) (hn : node < q.size)
    (hc : q.children node = []) : Filled node texts q (q.addValues node texts) := by
  have hchildren : (q.addValues node texts).children node =
      List.range' q.size texts.length := by
    rw [children_addValues hn, hc, if_pos rfl, List.nil_append]
  refine ⟨size_addValues hn, hchildren, ?_, fun i hi => ?_⟩
  · rw [hchildren]
    exact map_kind?_addValues hn
  · -- no old node stands under a new one, and the new ones stand under `node`
    rw [hchildren, List.mem_range'_1] at hi
    have hne : node ≠ i := by omega
    rw [children_addValues hn, if_neg hne, List.append_nil, hq.children_eq_nil hi.1]

/-- **What a save does to the query and to the condition.**  It is refused exactly when the strict
validation of the condition with the value nodes of `node` finds an error, and then both stay as
they are.  If it goes through and the operator takes several values, the condition holds a text
and nothing stands under `node`, then the values of the text, in order, become the children of
`node`, and the text becomes empty; in every other case nothing changes.  Every other node keeps
its kind, its parent and its children, and the condition its other fields, and the text that is
left is not taken apart a second time. -/
theorem Reachable.save_effect (hq : q.Reachable) (hn : node < q.size) :
    ((∃ r, q.save node c attributes = .error r) ↔
        (c.validate attributes (q.values node) true).errors ≠ []) ∧
      (∀ r, q.save node c attributes = .error r →
        r = c.validate attributes (q.values node) true ∧
          q.afterSave node c attributes = (q, c)) ∧
      ∀ s, q.save node c attributes = .ok s →
        s.report = c.validate attributes (q.values node) true ∧
        q.afterSave node c attributes = (s.query, s.condition) ∧
        ∃ op, Operator.find? c.operator = some op ∧
          (op.isMulti = true ∧ Text.blank c.value = false ∧ q.children node = [] →
            Filled node (ValueList.split c.value) q s.query ∧ s.condition.value = "" ∧
              s.created = (ValueList.split c.value).length) ∧
          (¬(op.isMulti = true ∧ Text.blank c.value = false ∧ q.children node = []) →
            s.query = q ∧ s.condition = c ∧ s.created = 0) ∧
          SameBut node q s.query ∧
          s.condition = { c with value := s.condition.value } ∧
          s.query.unpack node op s.condition.value = ⟨s.query, s.condition.value, 0⟩ := by
  refine ⟨?_, fun r h => ?_, fun s h => ?_⟩
  case refine_1 =>
    rw [ne_eq, Report.errors_eq_nil_iff, Bool.not_eq_false]
    constructor
    · rintro ⟨r, h⟩
      exact (save_eq_error_iff.1 h).1
    · intro hblocks
      exact ⟨_, save_eq_error_iff.2 ⟨hblocks, rfl⟩⟩
  case refine_2 =>
    exact ⟨(save_eq_error_iff.1 h).2, afterSave_of_error h⟩
  case refine_3 =>
    have hafter : q.afterSave node c attributes = (s.query, s.condition) := afterSave_of_ok h
    obtain ⟨-, op, hop, rfl⟩ := save_eq_ok_iff.1 h
    refine ⟨rfl, hafter, op, hop, ?_, ?_, sameBut_unpack hn, rfl, unpack_unpack⟩
    · rintro ⟨hm, hb, hc⟩
      rw [unpack_eq_addValues (by simp [Operator.hasPendingList, hm, hb]) hc]
      exact ⟨hq.ordered.filled_addValues hn hc, rfl, rfl⟩
    · intro hnot
      obtain hsame | ⟨hm, hb, hc, -⟩ := unpack_cases q node op c.value
      · rw [hsame]
        exact ⟨rfl, rfl, rfl⟩
      · exact absurd ⟨hm, hb, hc⟩ hnot

/-- A query on accounts with a filter at node 2 and one condition twice below it. -/
def namesQuery : Query :=
  (((ofEntity "account").add root .filter).add 2 (.condition names)).add 2 (.condition names)
where
  names : Condition := { attributeName := "name", operator := "in", value := " a, ,b" }

open namesQuery (names)

/-- Saving the first condition puts two value nodes under it and leaves the second one alone; with
no attribute named it is refused. -/
theorem save_effect_on_names :
    namesQuery.Reachable ∧ 3 < namesQuery.size ∧
      (∃ s, namesQuery.save 3 names none = .ok s ∧ Filled 3 ["a", "b"] namesQuery s.query ∧
        s.condition = { names with value := "" } ∧ s.created = 2 ∧
        s.query.kind? 4 = some (.condition names) ∧ s.query.children 4 = []) ∧
      ∃ r, namesQuery.save 3 { names with attributeName := " " } none = .error r ∧
        namesQuery.afterSave 3 { names with attributeName := " " } none =
          (namesQuery, { names with attributeName := " " }) := by
  have hq : namesQuery.Reachable :=
    .add 2 (by decide) trivial <| .add 2 (by decide) trivial <|
      .add root (by decide) trivial <| .ofEntity "account"
  have hn : 3 < namesQuery.size := by decide
  have hsaved : namesQuery.save 3 names none = .ok _ := rfl
  have hrefused : namesQuery.save 3 { names with attributeName := " " } none = .error _ := rfl
  refine ⟨hq, hn, ⟨_, hsaved, ?_⟩, _, hrefused, ((hq.save_effect hn).2.1 _ hrefused).2⟩
  · obtain ⟨-, -, op, hop, hfilled, -, hsame, -, -⟩ := (hq.save_effect hn).2.2 _ hsaved
    obtain ⟨hfilled, -, hcreated⟩ := hfilled (by cases hop; decide)
    refine ⟨hfilled, rfl, hcreated, ?_, ?_⟩
    · exact hsame.kind?_eq 4 (by decide)
    · exact hsame.children_eq 4 (by decide) (by decide)

end Query

end QueryEditor
