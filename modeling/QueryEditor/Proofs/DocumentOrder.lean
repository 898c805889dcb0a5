import Mathlib.Data.List.Flatten
import Mathlib.Logic.Relation
import QueryEditor.Proofs.QueryRuns

/-!
# Depth-first order

The columns of a query and its linked entities are listed in the order of a walk that visits each
node before those below it and, below a node, the older parts before the younger ones
(`Query.Precedes`).  A node stands below another one if the way up from it leads there
(`Query.IsAbove`).

* `Query.Ordered.mem_below_iff` : the walk visits all nodes below its start.
* `Query.belowWithin_pairwise` : it visits them in depth-first order.
* `Query.Ordered.mem_selectedWithin_iff` : which of them are columns.
* `Query.Ordered.closest?_eq_some_iff` : the closest entity above a node.
* `Query.Reachable.lists_columns_and_links` : **what is listed, once each and in which order.**
-/

namespace QueryEditor

namespace Query

variable {q : Query} {node parent i j a b levels steps : Nat}

/-! ### Above and below -/

/-- The way up from a node leads to another one. -/
def IsAbove (q : Query) (a i : Nat) : Prop :=
  Relation.TransGen (fun i parent => q.parent? i = some parent) i a

/-- The way up from a node leads to another one, or they are the same. -/
def IsAtOrAbove (q : Query) (a i : Nat) : Prop :=
  Relation.ReflTransGen (fun i parent => q.parent? i = some parent) i a

/-- A node comes before another one in depth-first order: it stands above it, or the way up leads
from them to different children of one node, from the first one to the older child. -/
def Precedes (q : Query) (i j : Nat) : Prop :=
  q.IsAbove i j ∨ ∃ parent a b, q.parent? a = some parent ∧ q.parent? b = some parent ∧
    a < b ∧ q.IsAtOrAbove a i ∧ q.IsAtOrAbove b j

theorem isAbove_of_parent? (h : q.parent? i = some parent) : q.IsAbove parent i := .single h

/-- The way up leads through a child. -/
theorem isAbove_iff :
    q.IsAbove a i ↔ ∃ child, q.parent? child = some a ∧ (child = i ∨ q.IsAbove child i) := by
  constructor
  · intro h
    obtain ⟨child, hup, hchild⟩ := Relation.TransGen.tail'_iff.1 h
    exact ⟨child, hchild, Relation.reflTransGen_iff_eq_or_transGen.1 hup⟩
  · rintro ⟨child, hchild, rfl | hup⟩
    · exact isAbove_of_parent? hchild
    · exact hup.tail hchild

/-- Two nodes on the way up from a third one are on one way. -/
theorem isAbove_trichotomy (ha : q.IsAtOrAbove a i) (hb : q.IsAtOrAbove b i) :
    a = b ∨ q.IsAbove a b ∨ q.IsAbove b a := by
  have hunique : Relator.RightUnique fun i parent => q.parent? i = some parent := by
    intro i parent parent' h h'
    exact Option.some.inj (h.symm.trans h')
  obtain hab | hba := Relation.ReflTransGen.total_of_right_unique hunique ha hb
  · obtain rfl | hab := Relation.reflTransGen_iff_eq_or_transGen.1 hab
    · exact .inl rfl
    · exact .inr (.inr hab)
  · obtain rfl | hba := Relation.reflTransGen_iff_eq_or_transGen.1 hba
    · exact .inl rfl
    · exact .inr (.inl hba)

/-- What stands above a child stands above its parent, or is the parent. -/
theorem eq_or_isAbove_of_isAbove_child (hchild : q.parent? i = some parent) (ha : q.IsAbove a i) :
    a = parent ∨ q.IsAbove a parent := by
  obtain ⟨next, hnext, hup⟩ := Relation.TransGen.head'_iff.1 ha
  obtain rfl : parent = next := Option.some.inj (hchild.symm.trans hnext)
  exact Relation.reflTransGen_iff_eq_or_transGen.1 hup

theorem lt_size_of_isAbove (hi : q.IsAbove a i) : i < q.size := by
  obtain ⟨next, hnext, -⟩ := Relation.TransGen.head'_iff.1 hi
  exact lt_size_of_parent? hnext

theorem mem_children_iff : i ∈ q.children node ↔ q.parent? i = some node := by
  constructor
  · intro h
    simpa using (List.mem_filter.1 h).2
  · intro h
    exact List.mem_filter.2 ⟨List.mem_range.2 (lt_size_of_parent? h), by simpa using h⟩

theorem children_pairwise (q : Query) (node : Nat) : (q.children node).Pairwise (· < ·) :=
  List.pairwise_lt_range.filter _

namespace Ordered

theorem lt_of_isAbove (h : q.Ordered) (ha : q.IsAbove a i) : a < i := by
  induction ha with
  | single hp => exact h _ _ hp
  | tail _ hp ih => exact Nat.lt_trans (h _ _ hp) ih

/-- No node comes before itself. -/
theorem ne_of_precedes (h : q.Ordered) (hij : q.Precedes i j) : i ≠ j := by
  rintro rfl
  obtain hup | ⟨parent, a, b, ha, hb, hlt, hai, hbi⟩ := hij
  · exact Nat.lt_irrefl _ (h.lt_of_isAbove hup)
  · -- of two children on one way up one would stand above their parent
    have habove : ∀ {c d}, q.parent? c = some parent → q.parent? d = some parent →
        ¬q.IsAbove c d := by
      intro c d hc hd hcd
      have hparent := h _ _ hc
      obtain rfl | hup := eq_or_isAbove_of_isAbove_child hd hcd
      · exact Nat.lt_irrefl _ hparent
      · exact Nat.lt_asymm hparent (h.lt_of_isAbove hup)
    obtain rfl | hab | hba := isAbove_trichotomy hai hbi
    · exact Nat.lt_irrefl _ hlt
    · exact habove ha hb hab
    · exact habove hb ha hba

end Ordered

/-! ### The walk -/

theorem isAbove_of_mem_belowWithin (h : i ∈ q.belowWithin levels node) : q.IsAbove node i := by
  induction levels generalizing node with
  | zero => cases h
  | succ levels ih =>
    obtain ⟨child, hchild, hi⟩ := List.mem_flatMap.1 h
    refine isAbove_iff.2 ⟨child, mem_children_iff.1 hchild, ?_⟩
    obtain rfl | hi := List.mem_cons.1 hi
    · exact .inl rfl
    · exact .inr (ih hi)

/-- **The walk is in depth-first order.** -/
theorem belowWithin_pairwise (q : Query) (levels node : Nat) :
    (q.belowWithin levels node).Pairwise q.Precedes := by
  induction levels generalizing node with
  | zero => exact .nil
  | succ levels ih =>
    have hatOrAbove {child i : Nat} (h : i ∈ child :: q.belowWithin levels child) :
        q.IsAtOrAbove child i := by
      obtain rfl | h := List.mem_cons.1 h
      · exact .refl
      · exact (isAbove_of_mem_belowWithin h).to_reflTransGen
    rw [belowWithin, List.pairwise_flatMap]
    constructor
    · intro child _
      refine List.pairwise_cons.2 ⟨fun i hi => ?_, ih child⟩
      exact .inl (isAbove_of_mem_belowWithin hi)
    · refine (children_pairwise q node).imp_of_mem fun ha hb hlt i hi j hj => ?_
      exact .inr ⟨node, _, _, mem_children_iff.1 ha, mem_children_iff.1 hb, hlt, hatOrAbove hi,
        hatOrAbove hj⟩

namespace Ordered

/-- Numbers grow on the way down, so as many levels are enough as there are numbers. -/
theorem mem_belowWithin (h : q.Ordered) (hi : q.IsAbove node i) (hlevels : i ≤ node + levels) :
    i ∈ q.belowWithin levels node := by
  induction levels generalizing node with
  | zero => exact absurd (h.lt_of_isAbove hi) (Nat.not_lt.2 hlevels)
  | succ levels ih =>
    obtain ⟨child, hchild, hup⟩ := isAbove_iff.1 hi
    have hlt := h _ _ hchild
    refine List.mem_flatMap.2 ⟨child, mem_children_iff.2 hchild, ?_⟩
    obtain rfl | hup := hup
    · exact List.mem_cons_self
    · exact List.mem_cons_of_mem _ (ih hup (by omega))

/-- **The walk visits all nodes below its start.** -/
theorem mem_below_iff (h : q.Ordered) : i ∈ q.below node ↔ q.IsAbove node i := by
  refine ⟨isAbove_of_mem_belowWithin, fun hi => h.mem_belowWithin hi ?_⟩
  have := lt_size_of_isAbove hi
  omega

end Ordered

/-! ### Columns -/

/-- The nodes of the attributes that are selected directly under a node or under linked entities
there. -/
def selectedWithin (q : Query) : Nat → Nat → List Nat
  | 0, _ => []
  | levels + 1, node => (q.children node).flatMap fun i => match q.kind? i with
    | some (.selected _ _) => [i]
    | some (.link _) => selectedWithin q levels i
    | _ => []

/-- The linked entity that owns what stands directly under a node. -/
def owner? (q : Query) (node : Nat) : Option Link := (q.kind? node).bind NodeKind.link?

theorem owner?_eq_some_iff {l : Link} : q.owner? i = some l ↔ q.kind? i = some (.link l) := by
  unfold owner?
  cases q.kind? i with
  | none => simp
  | some kind => cases kind <;> simp [NodeKind.link?]

/-- The column that a node selects; the linked entity above the node owns it. -/
def column? (q : Query) (i : Nat) : Option Column :=
  match q.kind? i with
  | some (.selected name ownAlias) =>
    some { name, ownAlias, entityAlias := ((q.parent? i).bind q.owner?).map (·.scopeName) }
  | _ => none

/-- A node selects an attribute and only linked entities stand between it and the node `top`. -/
structure IsSelected (q : Query) (top i : Nat) : Prop where
  selected : ∃ name ownAlias, q.kind? i = some (.selected name ownAlias)
  below : q.IsAbove top i
  linked : ∀ a, q.IsAbove top a → q.IsAbove a i → ∃ l, q.kind? a = some (.link l)

/-- The columns are those of these nodes. -/
theorem columnsWithin_eq (q : Query) (levels node : Nat) :
    (q.columnsWithin levels ((q.owner? node).map (·.scopeName)) node).map some =
      (q.selectedWithin levels node).map q.column? := by
  induction levels generalizing node with
  | zero => rfl
  | succ levels ih =>
    rw [columnsWithin, selectedWithin, List.map_flatMap, List.map_flatMap]
    refine List.flatMap_congr fun i hi => ?_
    have hparent := mem_children_iff.1 hi
    cases hkind : q.kind? i with
    | none => rfl
    | some kind =>
      cases kind with
      | selected name ownAlias => simp [column?, hkind, hparent]
      | link l =>
        have howner : q.owner? i = some l := owner?_eq_some_iff.2 hkind
        have hlinked := ih i
        rw [howner] at hlinked
        exact hlinked
      | _ => rfl

/-- They are passed in the walk. -/
theorem selectedWithin_sublist (q : Query) (levels node : Nat) :
    (q.selectedWithin levels node).Sublist (q.belowWithin levels node) := by
  induction levels generalizing node with
  | zero => exact .slnil
  | succ levels ih =>
    rw [selectedWithin, belowWithin]
    refine List.Sublist.flatMap_right _ fun i _ => ?_
    split
    case h_1 => exact .cons_cons _ (List.nil_sublist _)
    case h_2 => exact .cons _ (ih i)
    case h_3 => exact List.nil_sublist _

namespace Ordered

/-- Nothing stands between a node and its child. -/
theorem not_isAbove_child (h : q.Ordered) (hchild : q.parent? i = some parent)
    (ha : q.IsAbove parent a) : ¬q.IsAbove a i := by
  intro hai
  have hlt := h.lt_of_isAbove ha
  obtain rfl | hup := eq_or_isAbove_of_isAbove_child hchild hai
  · exact Nat.lt_irrefl _ hlt
  · exact Nat.lt_asymm hlt (h.lt_of_isAbove hup)

/-- A selected attribute is a child, or it is selected below a linked entity that is one. -/
theorem isSelected_iff (h : q.Ordered) :
    q.IsSelected node i ↔ ∃ child, q.parent? child = some node ∧
      ((child = i ∧ ∃ name ownAlias, q.kind? i = some (.selected name ownAlias)) ∨
        (∃ l, q.kind? child = some (.link l)) ∧ q.IsSelected child i) := by
  constructor
  · intro hi
    obtain ⟨child, hchild, hup⟩ := isAbove_iff.1 hi.below
    refine ⟨child, hchild, ?_⟩
    obtain rfl | hup := hup
    · exact .inl ⟨rfl, hi.selected⟩
    · refine .inr ⟨hi.linked child (isAbove_of_parent? hchild) hup, hi.selected, hup, ?_⟩
      intro a ha hai
      exact hi.linked a (ha.tail hchild) hai
  · rintro ⟨child, hchild, ⟨rfl, hselected⟩ | ⟨hlink, hi⟩⟩
    · refine ⟨hselected, isAbove_of_parent? hchild, fun a ha hai => ?_⟩
      exact absurd hai (h.not_isAbove_child hchild ha)
    · refine ⟨hi.selected, hi.below.tail hchild, fun a ha hai => ?_⟩
      obtain rfl | hup | hdown :=
        isAbove_trichotomy hai.to_reflTransGen hi.below.to_reflTransGen
      · exact hlink
      · exact absurd hup (h.not_isAbove_child hchild ha)
      · exact hi.linked a hdown hai

/-- **The columns are the attributes with only linked entities above them.** -/
theorem mem_selectedWithin_iff (h : q.Ordered) (hlevels : i ≤ node + levels) :
    i ∈ q.selectedWithin levels node ↔ q.IsSelected node i := by
  induction levels generalizing node with
  | zero =>
    constructor
    · intro hi
      cases hi
    · intro hi
      exact absurd (h.lt_of_isAbove hi.below) (Nat.not_lt.2 hlevels)
  | succ levels ih =>
    rw [h.isSelected_iff, selectedWithin, List.mem_flatMap]
    refine exists_congr fun child => ?_
    rw [mem_children_iff]
    refine and_congr_right fun hchild => ?_
    have hlt := h _ _ hchild
    split
    case h_1 name ownAlias hkind =>
      rw [List.mem_singleton]
      constructor
      · rintro rfl
        exact .inl ⟨rfl, name, ownAlias, hkind⟩
      · rintro (⟨rfl, -⟩ | ⟨⟨l, hl⟩, -⟩)
        · rfl
        · cases hkind.symm.trans hl
    case h_2 l hkind =>
      rw [ih (by omega)]
      constructor
      · exact fun hi => .inr ⟨⟨l, hkind⟩, hi⟩
      · rintro (⟨rfl, name, ownAlias, hselected⟩ | ⟨-, hi⟩)
        · cases hkind.symm.trans hselected
        · exact hi
    case h_3 hselected hlink =>
      refine ⟨fun hi => absurd hi List.not_mem_nil, ?_⟩
      rintro (⟨rfl, name, ownAlias, hkind⟩ | ⟨⟨l, hkind⟩, -⟩)
      · exact absurd hkind (hselected name ownAlias)
      · exact absurd hkind (hlink l)

theorem mem_selectedWithin_size_iff (h : q.Ordered) :
    i ∈ q.selectedWithin q.size node ↔ q.IsSelected node i := by
  have hiff (hi : q.IsAbove node i) : i ∈ q.selectedWithin q.size node ↔ q.IsSelected node i := by
    have := lt_size_of_isAbove hi
    exact h.mem_selectedWithin_iff (by omega)
  constructor
  · intro hi
    exact (hiff (isAbove_of_mem_belowWithin ((selectedWithin_sublist _ _ _).subset hi))).1 hi
  · intro hi
    exact (hiff hi.below).2 hi

end Ordered

/-! ### The closest entity -/

/-- Whether a node is an entity or a linked entity. -/
def BringsEntity (q : Query) (i : Nat) : Prop := ((q.kind? i).bind NodeKind.schema?).isSome = true

/-- Of the entities and linked entities above a node this one is the closest. -/
structure IsClosest (q : Query) (a i : Nat) : Prop where
  above : q.IsAbove a i
  entity : q.BringsEntity a
  closest : ∀ b, q.IsAbove b i → q.BringsEntity b → b = a ∨ q.IsAbove b a

namespace Ordered

/-- A parent that is an entity is the closest one. -/
theorem isClosest_iff_of_entity (h : q.Ordered) (hp : q.parent? i = some parent)
    (hentity : q.BringsEntity parent) : q.IsClosest a i ↔ parent = a := by
  constructor
  · intro ha
    have hparent := ha.closest parent (isAbove_of_parent? hp) hentity
    obtain rfl | hup := eq_or_isAbove_of_isAbove_child hp ha.above
    · rfl
    · obtain rfl | hdown := hparent
      · rfl
      · exact absurd (h.lt_of_isAbove hdown) (Nat.lt_asymm (h.lt_of_isAbove hup))
  · rintro rfl
    exact ⟨isAbove_of_parent? hp, hentity, fun b hb _ => eq_or_isAbove_of_isAbove_child hp hb⟩

/-- Otherwise it is the closest one above the parent. -/
theorem isClosest_iff_of_not_entity (hp : q.parent? i = some parent)
    (hentity : ¬q.BringsEntity parent) : q.IsClosest a i ↔ q.IsClosest a parent := by
  have hup {b : Nat} (hb : q.IsAbove b i) (hb' : q.BringsEntity b) : q.IsAbove b parent := by
    obtain rfl | hup := eq_or_isAbove_of_isAbove_child hp hb
    · exact absurd hb' hentity
    · exact hup
  constructor
  · intro ha
    exact ⟨hup ha.above ha.entity, ha.entity, fun b hb => ha.closest b (.head hp hb)⟩
  · intro ha
    exact ⟨.head hp ha.above, ha.entity, fun b hb hb' => ha.closest b (hup hb hb') hb'⟩

theorem closestWithin_eq_some_iff (h : q.Ordered) (hsteps : i < steps) :
    q.closestWithin steps i = some a ↔ q.IsClosest a i := by
  induction steps generalizing i with
  | zero => cases hsteps
  | succ steps ih =>
    rw [closestWithin]
    cases hp : q.parent? i with
    | none =>
      refine ⟨fun ha => absurd ha (by simp), fun ha => ?_⟩
      obtain ⟨parent, hparent, -⟩ := Relation.TransGen.head'_iff.1 ha.above
      cases hp.symm.trans hparent
    | some parent =>
      have hlt := h _ _ hp
      rw [Option.bind_some]
      split
      case isTrue hentity => rw [h.isClosest_iff_of_entity hp hentity, Option.some.injEq]
      case isFalse hentity => rw [isClosest_iff_of_not_entity hp hentity, ih (by omega)]

/-- **The closest entity above a node is found.** -/
theorem closest?_eq_some_iff (h : q.Ordered) : q.closest? i = some a ↔ q.IsClosest a i := by
  by_cases hi : i < q.size
  · exact h.closestWithin_eq_some_iff hi
  · have hnone : q.parent? i = none := by
      refine Option.eq_none_iff_forall_ne_some.2 fun parent hp => hi (lt_size_of_parent? hp)
    constructor
    · intro ha
      unfold closest? at ha
      cases hsize : q.size with
      | zero => rw [hsize] at ha; cases ha
      | succ steps => rw [hsize, closestWithin, hnone] at ha; cases ha
    · exact fun ha => absurd (lt_size_of_isAbove ha.above) hi

end Ordered

/-! ### What is listed -/

/-- A list of nodes has those with a property, once each and in depth-first order. -/
structure Lists (q : Query) (nodes : List Nat) (property : Nat → Prop) : Prop where
  nodup : nodes.Nodup
  mem_iff : ∀ i, i ∈ nodes ↔ property i
  ordered : nodes.Pairwise q.Precedes

/-- Nodes that the walk passes are listed in its order. -/
theorem Ordered.lists_of_sublist (h : q.Ordered) {nodes : List Nat} {property : Nat → Prop}
    (hsub : nodes.Sublist (q.below node)) (hmem : ∀ i, i ∈ nodes ↔ property i) :
    q.Lists nodes property := by
  have hordered : nodes.Pairwise q.Precedes := (q.belowWithin_pairwise _ node).sublist hsub
  exact ⟨hordered.imp fun hij => h.ne_of_precedes hij, hmem, hordered⟩

theorem map_some_filterMap {α β : Type} (f : α → Option β) (l : List α) :
    (l.filterMap f).map some = (l.filter fun a => (f a).isSome).map f := by
  induction l with
  | nil => rfl
  | cons a l ih => cases hf : f a <;> simp [hf, ih]

/-- **What is listed of a query.**  Its columns are those of the attributes that have only linked
entities between them and the root entity, and each is owned by the linked entity directly above
it.  Where the root entity is the closest above a node, its linked entities are all those below the
root entity; elsewhere there are none.  Both are listed once each and in depth-first order. -/
theorem Reachable.lists_columns_and_links (h : q.Reachable) :
    (∃ nodes, q.Lists nodes (q.IsSelected root) ∧ q.columns.map some = nodes.map q.column?) ∧
      ∀ node,
        (q.IsClosest root node → ∃ nodes,
          q.Lists nodes (fun i => q.IsAbove root i ∧ ∃ l, q.kind? i = some (.link l)) ∧
            (q.linkedEntities node).map some = nodes.map q.owner?) ∧
        (¬q.IsClosest root node → q.linkedEntities node = []) := by
  have ho := h.ordered
  refine ⟨?_, fun node => ⟨fun hclosest => ?_, fun hclosest => ?_⟩⟩
  case refine_1 =>
    refine ⟨q.selectedWithin q.size root, ?_, ?_⟩
    · exact ho.lists_of_sublist (selectedWithin_sublist _ _ _) fun i =>
        ho.mem_selectedWithin_size_iff
    · have hroot : q.owner? root = none := by
        obtain ⟨name, hname⟩ := h.kind?_root
        rw [owner?, hname]
        rfl
      have hcolumns := q.columnsWithin_eq q.size root
      rwa [hroot] at hcolumns
  case refine_2 =>
    refine ⟨(q.below root).filter fun i => (q.owner? i).isSome, ?_, ?_⟩
    · refine ho.lists_of_sublist List.filter_sublist fun i => ?_
      rw [List.mem_filter, ho.mem_below_iff, Option.isSome_iff_exists]
      exact and_congr_right fun _ => exists_congr fun l => owner?_eq_some_iff
    · rw [linkedEntities, if_pos (ho.closest?_eq_some_iff.2 hclosest), map_some_filterMap]
      rfl
  case refine_3 =>
    rw [linkedEntities, if_neg fun heq => hclosest (ho.closest?_eq_some_iff.1 heq)]

/-- A query with linked entities in a filter and under each other, and with attributes in the
filter and under a condition. -/
def tangledQuery : Query :=
  let q := ofEntity "account"
  let q := q.add root (.selected "name" none)
  let q := q.add root (.link ⟨"contact", some "pc"⟩)
  let q := q.add root .filter
  let q := q.add 4 (.condition ⟨"name", "eq", "x", "", none⟩)
  let q := q.add 4 (.link ⟨"lead", none⟩)
  let q := q.add 6 (.selected "subject" none)
  let q := q.add 5 (.selected "city" none)
  let q := q.add root (.selected "revenue" (some "rev"))
  let q := q.add 6 (.link ⟨"task", some "t"⟩)
  q.add 3 (.selected "fullname" none)

/-- The attributes in the filter and under the condition are no columns, and the one that was added
last comes before one of the root entity.  The condition may be about any linked entity. -/
theorem lists_columns_and_links_of_tangled :
    tangledQuery.Reachable ∧
      tangledQuery.columns.map (·.resultName) = ["name", "pc.fullname", "rev"] ∧
      (∃ nodes, tangledQuery.Lists nodes (tangledQuery.IsSelected root) ∧
        tangledQuery.columns.map some = nodes.map tangledQuery.column?) ∧
      (tangledQuery.linkedEntities 5).map (·.scopeName) = ["pc", "lead", "t"] ∧
      (∃ nodes, tangledQuery.Lists nodes
          (fun i => tangledQuery.IsAbove root i ∧ ∃ l, tangledQuery.kind? i = some (.link l)) ∧
        (tangledQuery.linkedEntities 5).map some = nodes.map tangledQuery.owner?) ∧
      tangledQuery.linkedEntities 7 = [] := by
  have h : tangledQuery.Reachable :=
    .add 3 (by decide) trivial <| .add 6 (by decide) trivial <|
      .add root (by decide) trivial <| .add 5 (by decide) trivial <|
      .add 6 (by decide) trivial <| .add 4 (by decide) trivial <|
      .add 4 (by decide) trivial <| .add root (by decide) trivial <|
      .add root (by decide) trivial <| .add root (by decide) trivial <| .ofEntity "account"
  have hroot : tangledQuery.IsClosest root 5 := h.ordered.closest?_eq_some_iff.1 (by decide)
  have hother : ¬tangledQuery.IsClosest root 7 := by
    intro hroot
    have heq := h.ordered.closest?_eq_some_iff.2 hroot
    exact absurd heq (by decide)
  obtain ⟨hcolumns, hlinks⟩ := h.lists_columns_and_links
  exact ⟨h, by decide +kernel, hcolumns, by decide +kernel, (hlinks 5).1 hroot,
    (hlinks 7).2 hother⟩

end Query

end QueryEditor
