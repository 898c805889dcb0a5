import QueryEditor.Proofs.QueryTree

/-!
# The queries that can arise

A query starts with its root entity; then nodes are added under nodes that are there and
conditions are edited, in any order (`Query.Reachable`).  So a node is always younger than the
one it stands under (`Query.Ordered`, `Query.Reachable.ordered`), and a number that no node has
yet has no children (`Query.Ordered.children_eq_nil`).
-/

namespace QueryEditor

/-- The nodes that can be added to a query: all but the query itself and its root entity. -/
def NodeKind.IsAddable : NodeKind → Prop
  | query | entity _ => False
  | _ => True

namespace Query

variable {q : Query} {node i parent : Nat} {kind : NodeKind} {c : Condition}

/-- The queries that can arise. -/
inductive Reachable : Query → Prop
  /-- A query on one entity. -/
  | ofEntity (name : String) : Reachable (ofEntity name)
  /-- A node was added under one that is there. -/
  | add {q : Query} {kind : NodeKind} (parent : Nat) (hp : parent < q.size) (hk : kind.IsAddable) :
      Reachable q → Reachable (q.add parent kind)
  /-- A condition was edited. -/
  | setCondition {q : Query} (node : Nat) (c : Condition) :
      Reachable q → Reachable (q.setCondition node c)

/-- Every node is younger than the one it stands under. -/
def Ordered (q : Query) : Prop := ∀ i parent, q.parent? i = some parent → parent < i

theorem parent?_setCondition : (q.setCondition node c).parent? i = q.parent? i := by
  unfold setCondition
  split
  · simp only [parent?, Array.getElem?_modify]
    split <;> cases q.nodes[i]? <;> rfl
  · rfl

theorem size_setCondition : (q.setCondition node c).size = q.size := by
  unfold setCondition
  split
  · simp [size]
  · rfl

theorem kind?_setCondition_of_ne (h : (q.kind? i).bind NodeKind.condition? = none) :
    (q.setCondition node c).kind? i = q.kind? i := by
  unfold setCondition
  split
  case isTrue hcondition =>
    have hne : node ≠ i := by
      rintro rfl
      rw [condition?, h] at hcondition
      cases hcondition
    simp [kind?, Array.getElem?_modify, hne]
  case isFalse => rfl

theorem lt_size_of_parent? (h : q.parent? i = some parent) : i < q.size := by
  obtain ⟨n, hn, -⟩ := Option.bind_eq_some_iff.1 h
  exact (Array.getElem?_eq_some_iff.1 hn).1

namespace Ordered

theorem ofEntity (name : String) : (ofEntity name).Ordered := by
  intro i parent h
  match i with
  | 0 => cases h
  | 1 =>
    obtain rfl : 0 = parent := by simpa [parent?, Query.ofEntity] using h
    exact Nat.zero_lt_one
  | i + 2 => simp [parent?, Query.ofEntity] at h

theorem add (h : q.Ordered) (hp : parent < q.size) (kind : NodeKind) :
    (q.add parent kind).Ordered := by
  intro i p hi
  have hlt : i < q.size + 1 := by
    rw [← size_add hp]
    exact lt_size_of_parent? hi
  obtain hlt | rfl := Nat.lt_succ_iff_lt_or_eq.1 hlt
  · rw [parent?_add_of_lt hlt] at hi
    exact h i p hi
  · rw [parent?_add_size hp] at hi
    obtain rfl : parent = p := Option.some.inj hi
    exact hp

theorem setCondition (h : q.Ordered) (node : Nat) (c : Condition) :
    (q.setCondition node c).Ordered := by
  intro i p hi
  rw [parent?_setCondition] at hi
  exact h i p hi

/-- A number that no node has yet has no children. -/
theorem children_eq_nil (h : q.Ordered) (hi : q.size ≤ i) : q.children i = [] := by
  refine List.filter_eq_nil_iff.2 fun j hj => ?_
  have hj : j < q.size := List.mem_range.1 hj
  intro hp
  have := h j i (by simpa using hp)
  omega

end Ordered

theorem Reachable.ordered (h : q.Reachable) : q.Ordered := by
  induction h with
  | ofEntity name => exact .ofEntity name
  | add parent hp _ _ ih => exact ih.add hp _
  | setCondition node c _ ih => exact ih.setCondition node c

/-- Node 1 stays the root entity. -/
theorem Reachable.kind?_root (h : q.Reachable) : ∃ name, q.kind? root = some (.entity name) := by
  induction h with
  | ofEntity name => exact ⟨name, rfl⟩
  | @add q kind parent _ _ _ ih =>
    obtain ⟨name, hname⟩ := ih
    have hlt : root < q.size := by
      obtain ⟨n, hn, -⟩ := Option.map_eq_some_iff.1 hname
      exact (Array.getElem?_eq_some_iff.1 hn).1
    exact ⟨name, by rw [kind?_add_of_lt hlt, hname]⟩
  | setCondition node c _ ih =>
    obtain ⟨name, hname⟩ := ih
    exact ⟨name, by rw [kind?_setCondition_of_ne (by rw [hname]; rfl), hname]⟩

end Query

end QueryEditor
