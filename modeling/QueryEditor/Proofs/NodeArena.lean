import Mathlib.Data.List.Nodup
import QueryEditor.Proofs.DocumentOrder

/-!
# Nodes with links in both directions

A `Query` stores for each node the one it stands under and finds its children by looking through all
nodes.  An `Arena` stores the links in both directions instead: a node that is added is also put on
the list of its parent.  Looking around then means to follow numbers, which could lead nowhere, or
in a circle, if the two directions did not agree (`Arena.Fault`).

* `Arena.getElem?_add` : all that an addition changes.
* `Arena.Reachable.children_eq` : the lists hold what looking through all nodes finds.
* `Arena.Reachable.closest_eq`, `Arena.Reachable.gather_eq` : the walks up and down end, and find
  what is found in the query that the arena stores.
* `Arena.Reachable.linked_and_walkable` : **what holds of the links after any additions.**
* `Query.Reachable.exists_arena` : every query that can arise is stored by such an arena.
-/

namespace QueryEditor

/-- A node that lists the nodes under it. -/
structure LinkedNode extends Node where
  children : List Nat := []

/-- The nodes of a query in the order in which they were added, with links in both directions. -/
structure Arena where
  nodes : Array LinkedNode

namespace Arena

variable {a : Arena} {parent i j : Nat} {kind : NodeKind}

/-- The number of nodes, which the next node will have. -/
def size (a : Arena) : Nat := a.nodes.size

/-- The query that is stored. -/
def query (a : Arena) : Query := ⟨a.nodes.map (·.toNode)⟩

/-- The node that a node stands under. -/
def parent? (a : Arena) (i : Nat) : Option Nat := a.nodes[i]?.bind (·.parent)

/-- The nodes that a node lists. -/
def children (a : Arena) (i : Nat) : List Nat := (a.nodes[i]?.map (·.children)).getD []

/-- Adds a node under a node that is there, which lists it last.  As in `Query.add`, nothing is
added for a number that no node has. -/
def add (a : Arena) (parent : Nat) (kind : NodeKind) : Arena :=
  if parent < a.size then
    ⟨(a.nodes.push { kind, parent := some parent }).modify parent fun n =>
      { n with children := n.children ++ [a.size] }⟩
  else a

/-- Puts another condition at a condition's node. -/
def setCondition (a : Arena) (i : Nat) (c : Condition) : Arena :=
  if (a.query.condition? i).isSome then
    ⟨a.nodes.modify i fun n => { n with kind := .condition c }⟩
  else a

/-- The node of the query itself, with nothing under it. -/
def bare : Arena := ⟨#[{ kind := .query, parent := none }]⟩

/-- A query on one entity. -/
def ofEntity (name : String) : Arena := bare.add 0 (.entity name)

/-- The arenas that can arise. -/
inductive Reachable : Arena → Prop
  /-- A query on one entity. -/
  | ofEntity (name : String) : Reachable (ofEntity name)
  /-- A node was added under one that is there. -/
  | add {a : Arena} {kind : NodeKind} (parent : Nat) (hp : parent < a.size) (hk : kind.IsAddable) :
      Reachable a → Reachable (a.add parent kind)
  /-- A condition was edited. -/
  | setCondition {a : Arena} (i : Nat) (c : Condition) :
      Reachable a → Reachable (a.setCondition i c)

/-! ### The query that is stored -/

@[simp] theorem size_query (a : Arena) : a.query.size = a.size := by
  simp [query, size, Query.size]

@[simp] theorem parent?_query (a : Arena) (i : Nat) : a.query.parent? i = a.parent? i := by
  rw [Query.parent?, query, Array.getElem?_map, Option.bind_map]
  rfl

theorem kind?_query (a : Arena) (i : Nat) : a.query.kind? i = a.nodes[i]?.map (·.kind) := by
  simp [query, Query.kind?, Function.comp_def]

/-- Two arenas store the same query if they have the same nodes, up to what these list. -/
theorem query_ext {a : Arena} {q : Query}
    (h : ∀ i : Nat, a.nodes[i]?.map (·.toNode) = q.nodes[i]?) : a.query = q := by
  obtain ⟨nodes⟩ := q
  refine congrArg Query.mk (Array.ext_getElem? fun i => ?_)
  rw [Array.getElem?_map]
  exact h i

/-- **All that an addition changes**: there is one node more, and its parent lists it last. -/
theorem getElem?_add (h : parent < a.size) (i : Nat) :
    (a.add parent kind).nodes[i]? =
      if i = a.size then some { kind, parent := some parent }
      else a.nodes[i]?.map fun n =>
        if i = parent then { n with children := n.children ++ [a.size] } else n := by
  rw [add, if_pos h]
  show ((a.nodes.push _).modify parent _)[i]? = _
  rw [Array.getElem?_modify, Array.getElem?_push]
  show (if parent = i then (if i = a.size then _ else _ : Option LinkedNode).map _
    else if i = a.size then _ else _) = _
  by_cases hi : i = a.size
  · have hne : parent ≠ i := by omega
    rw [if_neg hne, if_pos hi, if_pos hi]
  · rw [if_neg hi, if_neg hi]
    by_cases hp : parent = i
    · simp [hp]
    · simp [hp, Ne.symm hp]

theorem query_add (a : Arena) (parent : Nat) (kind : NodeKind) :
    (a.add parent kind).query = a.query.add parent kind := by
  by_cases h : parent < a.size
  case neg => rw [add, if_neg h, Query.add, size_query, if_neg h]
  case pos =>
    refine query_ext fun i => ?_
    rw [getElem?_add h, Query.add, size_query, if_pos h]
    show _ = (a.query.nodes.push _)[i]?
    rw [Array.getElem?_push]
    by_cases hi : i = a.size
    · have hsize : i = a.query.nodes.size := hi.trans a.size_query.symm
      rw [if_pos hi, if_pos hsize, Option.map_some]
    · have hsize : i ≠ a.query.nodes.size := fun heq => hi (heq.trans a.size_query)
      rw [if_neg hi, if_neg hsize, query, Array.getElem?_map, Option.map_map]
      refine Option.map_congr fun n _ => ?_
      show LinkedNode.toNode (if _ then _ else _) = _
      split <;> rfl

theorem query_setCondition (a : Arena) (i : Nat) (c : Condition) :
    (a.setCondition i c).query = a.query.setCondition i c := by
  unfold setCondition Query.setCondition
  split
  case isFalse => rfl
  case isTrue =>
    refine query_ext fun j => ?_
    show (a.nodes.modify i _)[j]?.map _ = (a.query.nodes.modify i _)[j]?
    rw [Array.getElem?_modify, Array.getElem?_modify, query, Array.getElem?_map]
    split <;> cases a.nodes[j]? <;> rfl

theorem query_ofEntity (name : String) : (ofEntity name).query = Query.ofEntity name := by
  rw [ofEntity, query_add]
  simp [bare, query, Query.add, Query.size, Query.ofEntity]

theorem Reachable.query (h : a.Reachable) : a.query.Reachable := by
  induction h with
  | ofEntity name => exact query_ofEntity name ▸ .ofEntity name
  | @add a kind parent hp hk _ ih =>
    have hq : parent < a.query.size := a.size_query.symm ▸ hp
    exact query_add a parent kind ▸ .add parent hq hk ih
  | setCondition i c _ ih => exact query_setCondition _ i c ▸ .setCondition i c ih

/-! ### Both directions agree -/

/-- A new node is on the list of its parent only, where it comes last. -/
theorem children_add (h : parent < a.size) :
    (a.add parent kind).children i = a.children i ++ if parent = i then [a.size] else [] := by
  rw [children, getElem?_add h, children]
  by_cases hi : i = a.size
  · have hne : parent ≠ i := by omega
    have hnone : a.nodes[i]? = none := Array.getElem?_eq_none (Nat.le_of_eq hi.symm)
    rw [if_pos hi, if_neg hne, hnone]
    rfl
  · rw [if_neg hi]
    by_cases hp : parent = i
    · subst hp
      rw [if_pos rfl, Array.getElem?_eq_getElem h]
      simp
    · rw [if_neg hp, List.append_nil, Option.map_map]
      simp [Ne.symm hp, Function.comp_def]

theorem children_setCondition (a : Arena) (j : Nat) (c : Condition) (i : Nat) :
    (a.setCondition j c).children i = a.children i := by
  unfold setCondition
  split
  case isFalse => rfl
  case isTrue =>
    show ((a.nodes.modify j _)[i]?.map _).getD [] = (a.nodes[i]?.map _).getD []
    rw [Array.getElem?_modify]
    split <;> cases a.nodes[i]? <;> rfl

/-- An addition keeps the lists in agreement with the links to parents. -/
theorem children_eq_add (h : ∀ i, a.children i = a.query.children i) (hp : parent < a.size)
    (kind : NodeKind) (i : Nat) :
    (a.add parent kind).children i = (a.add parent kind).query.children i := by
  have hq : parent < a.query.size := a.size_query.symm ▸ hp
  rw [children_add hp, query_add, Query.children_add hq, h, size_query]

theorem children_bare (i : Nat) : bare.children i = bare.query.children i := by
  have hstored : bare.children i = [] := by
    cases i <;> rfl
  have hfound : bare.query.children i = [] := by
    refine List.filter_eq_nil_iff.2 fun j hj => ?_
    have hlt : j < bare.size := by simpa using hj
    obtain rfl : j = 0 := Nat.lt_one_iff.1 hlt
    rw [parent?_query]
    exact Bool.false_ne_true
  rw [hstored, hfound]

/-- **A node lists its children**: those that are found by looking through all nodes. -/
theorem Reachable.children_eq (h : a.Reachable) (i : Nat) : a.children i = a.query.children i := by
  induction h generalizing i with
  | ofEntity name => exact children_eq_add children_bare (by decide) _ i
  | add parent hp _ _ ih => exact children_eq_add ih hp _ i
  | setCondition j c _ ih =>
    rw [children_setCondition, query_setCondition, ih]
    simp only [Query.children, Query.parent?_setCondition, Query.size_setCondition]

/-! ### Walks by number -/

/-- Why following links gives no answer. -/
inductive Fault
  /-- A number that no node has. -/
  | outside
  /-- The walk was still going on after the steps that it was given. -/
  | unfinished
  deriving DecidableEq

/-- The node with a number. -/
def node (a : Arena) (i : Nat) : Except Fault LinkedNode :=
  match a.nodes[i]? with
  | some n => .ok n
  | none => .error .outside

/-- The walk up to the closest entity or linked entity. -/
def closest (a : Arena) : Nat → Nat → Except Fault (Option Nat)
  | 0, _ => .error .unfinished
  | steps + 1, i => do
    match (← a.node i).parent with
    | none => pure none
    | some p => if (← a.node p).kind.schema?.isSome then pure (some p) else closest a steps p

/-- What a walk down brings from a child.  `visit` says for the kind of the child what is taken from
there, and with which state the walk goes on below it, if it does. -/
def gatherChild {σ α : Type} (a : Arena) (visit : σ → NodeKind → List α × Option σ)
    (below : σ → Nat → Except Fault (List α)) (state : σ) (child : Nat) :
    Except Fault (List α) := do
  match visit state (← a.node child).kind with
  | (here, none) => pure here
  | (here, some state) => return here ++ (← below state child)

/-- What a walk down brings from below a node. -/
def gather {σ α : Type} (a : Arena) (visit : σ → NodeKind → List α × Option σ) :
    Nat → σ → Nat → Except Fault (List α)
  | 0, _, _ => .error .unfinished
  | steps + 1, state, i => do
    let found ← (← a.node i).children.mapM (a.gatherChild visit (gather a visit steps) state)
    return found.flatten

/-- A selected attribute is a column of the linked entity `scope`, and below a linked entity the
columns are its own. -/
def visitColumn (scope : Option String) : NodeKind → List Column × Option (Option String)
  | .selected name ownAlias => ([{ name, ownAlias, entityAlias := scope }], none)
  | .link l => ([], some (some l.scopeName))
  | _ => ([], none)

/-- Linked entities are looked for everywhere. -/
def visitLink (_ : Unit) (kind : NodeKind) : List Link × Option Unit := (kind.link?.toList, some ())

end Arena

/-- What a walk down the stored query brings from a child. -/
def Query.gatherChild {σ α : Type} (q : Query) (visit : σ → NodeKind → List α × Option σ)
    (below : σ → Nat → List α) (state : σ) (child : Nat) : List α :=
  match (q.kind? child).map (visit state) with
  | none => []
  | some (here, none) => here
  | some (here, some state) => here ++ below state child

/-- The same walk down through the children that are found by looking through all nodes. -/
def Query.gather {σ α : Type} (q : Query) (visit : σ → NodeKind → List α × Option σ) :
    Nat → σ → Nat → List α
  | 0, _, _ => []
  | levels + 1, state, i =>
    (q.children i).flatMap (q.gatherChild visit (gather q visit levels) state)

theorem Query.exists_kind? {q : Query} {i : Nat} (h : i < q.size) :
    ∃ kind, q.kind? i = some kind :=
  ⟨_, by rw [kind?, Array.getElem?_eq_getElem h, Option.map_some]⟩

theorem Query.columnsWithin_eq_gather (q : Query) (levels : Nat) (scope : Option String) (i : Nat) :
    q.columnsWithin levels scope i = q.gather Arena.visitColumn levels scope i := by
  induction levels generalizing scope i with
  | zero => rfl
  | succ levels ih =>
    rw [columnsWithin, gather]
    refine List.flatMap_congr fun child _ => ?_
    rw [gatherChild]
    rcases q.kind? child with _ | kind
    · rfl
    · cases kind with
      | link l => exact ih _ _
      | _ => rfl

theorem Query.links_eq_gather (q : Query) (levels i : Nat) :
    (q.belowWithin levels i).filterMap (fun i => (q.kind? i).bind NodeKind.link?) =
      q.gather Arena.visitLink levels () i := by
  induction levels generalizing i with
  | zero => rfl
  | succ levels ih =>
    rw [belowWithin, gather, List.filterMap_flatMap]
    refine List.flatMap_congr fun child hchild => ?_
    obtain ⟨kind, hkind⟩ : ∃ kind, q.kind? child = some kind :=
      exists_kind? (lt_size_of_mem_children hchild)
    rw [gatherChild, hkind, List.filterMap_cons, hkind, ih]
    cases kind <;> rfl

namespace Arena

variable {a : Arena} {parent i j steps steps' : Nat} {kind : NodeKind}

theorem mapM_eq_ok {ε α β : Type} {f : α → Except ε β} {g : α → β} {l : List α}
    (h : ∀ x ∈ l, f x = .ok (g x)) : l.mapM f = .ok (l.map g) := by
  induction l with
  | nil => rfl
  | cons x l ih =>
    obtain ⟨hx, hl⟩ := List.forall_mem_cons.1 h
    rw [List.mapM_cons, hx, ih hl]
    rfl

theorem exists_node (h : i < a.size) : ∃ n, a.nodes[i]? = some n ∧ a.node i = .ok n := by
  have hi : a.nodes[i]? = some a.nodes[i] := Array.getElem?_eq_getElem h
  exact ⟨_, hi, by rw [node, hi]⟩

/-- **The walk up ends**, since the numbers fall. -/
theorem Reachable.closest_eq (h : a.Reachable) (hi : i < a.size) (hsteps : i < steps)
    (hsteps' : i < steps') : a.closest steps i = .ok (a.query.closestWithin steps' i) := by
  induction steps generalizing i steps' with
  | zero => cases hsteps
  | succ steps ih =>
    rcases steps' with _ | steps'
    · cases hsteps'
    obtain ⟨n, hn, hnode⟩ := exists_node hi
    have hparent : a.query.parent? i = n.parent := by
      rw [parent?_query, parent?, hn, Option.bind_some]
    rw [closest, hnode, Query.closestWithin, hparent]
    show (match n.parent with | none => _ | some p => a.node p >>= _) = _
    cases hp : n.parent with
    | none => rfl
    | some p =>
      dsimp only
      have hlt : p < i := h.query.ordered i p (hparent.trans hp)
      obtain ⟨m, hm, hmnode⟩ := exists_node (Nat.lt_trans hlt hi)
      have hkind : a.query.kind? p = some m.kind := by
        rw [kind?_query, hm, Option.map_some]
      rw [Option.bind_some, hkind, Option.bind_some, hmnode]
      show (if m.kind.schema?.isSome then _ else _) = _
      split
      · rfl
      · exact ih (by omega) (by omega) (by omega)

theorem gatherChild_eq {σ α : Type} {visit : σ → NodeKind → List α × Option σ} {state : σ}
    {below : σ → Nat → Except Fault (List α)} {found : σ → Nat → List α} (hi : i < a.size)
    (hbelow : ∀ state, below state i = .ok (found state i)) :
    a.gatherChild visit below state i = .ok (a.query.gatherChild visit found state i) := by
  obtain ⟨n, hn, hnode⟩ := exists_node hi
  have hkind : a.query.kind? i = some n.kind := by
    rw [kind?_query, hn, Option.map_some]
  rw [gatherChild, hnode, Query.gatherChild, hkind, Option.map_some]
  show (match visit state n.kind with
    | (here, none) => pure here
    | (here, some state) => below state i >>= fun rest => pure (here ++ rest)) = _
  rcases visit state n.kind with ⟨here, _ | state⟩
  · rfl
  · dsimp only
    rw [hbelow]
    rfl

/-- **The walk down ends**, since the numbers grow and the lists are in agreement. -/
theorem Reachable.gather_eq {σ α : Type} (h : a.Reachable)
    (visit : σ → NodeKind → List α × Option σ) (state : σ) (hi : i < a.size)
    (hsteps : a.size ≤ i + steps) (hsteps' : a.size ≤ i + steps') :
    a.gather visit steps state i = .ok (a.query.gather visit steps' state i) := by
  induction steps generalizing i state steps' with
  | zero => omega
  | succ steps ih =>
    rcases steps' with _ | steps'
    · omega
    obtain ⟨n, hn, hnode⟩ := exists_node hi
    have hchildren : n.children = a.query.children i := by
      rw [← h.children_eq, children, hn]
      rfl
    have hfound : n.children.mapM (a.gatherChild visit (a.gather visit steps) state) =
        .ok (n.children.map (a.query.gatherChild visit (a.query.gather visit steps') state)) := by
      refine mapM_eq_ok fun child hchild => ?_
      have hparent : a.query.parent? child = some i :=
        Query.mem_children_iff.1 (hchildren ▸ hchild)
      have hlt : i < child := h.query.ordered child i hparent
      have hsize : child < a.size := a.size_query ▸ Query.lt_size_of_parent? hparent
      exact gatherChild_eq hsize fun below => ih below hsize (by omega) (by omega)
    rw [gather, hnode, Query.gather, List.flatMap_def, ← hchildren]
    show (n.children.mapM (a.gatherChild visit (a.gather visit steps) state) >>= _) = _
    rw [hfound]
    rfl

/-! ### What holds after any additions -/

end Arena

/-- Only the node of the query itself stands under none. -/
theorem Query.Reachable.parent?_eq_none_iff {q : Query} (h : q.Reachable) {i : Nat}
    (hi : i < q.size) : q.parent? i = none ↔ i = 0 := by
  induction h with
  | ofEntity name =>
    have hroot : (Query.ofEntity name).parent? 1 = some 0 := rfl
    obtain rfl | rfl : i = 0 ∨ i = 1 := Nat.le_one_iff_eq_zero_or_eq_one.1 (Nat.le_of_lt_succ hi)
    · exact iff_of_true rfl rfl
    · simp [hroot]
  | @add q kind parent hp _ _ ih =>
    rw [size_add hp] at hi
    obtain hlt | rfl := Nat.lt_succ_iff_lt_or_eq.1 hi
    · rw [parent?_add_of_lt hlt, ih hlt]
    · rw [parent?_add_size hp]
      exact iff_of_false (Option.some_ne_none _) (Nat.ne_of_gt (Nat.zero_lt_of_lt hp))
  | setCondition node c _ ih =>
    rw [size_setCondition] at hi
    rw [parent?_setCondition, ih hi]

namespace Arena

/-- The links of an arena agree in both directions, and a node is younger than the one it stands
under. -/
structure WellLinked (a : Arena) : Prop where
  /-- The root entity is there. -/
  root_lt : Query.root < a.size
  /-- Only the node of the query itself stands under none. -/
  parent?_eq_none_iff : ∀ i < a.size, a.parent? i = none ↔ i = 0
  /-- Every other node stands under an older one, which lists it once. -/
  listed : ∀ i parent, a.parent? i = some parent → parent < i ∧ (a.children parent).count i = 1
  /-- A list grows. -/
  increasing : ∀ i, (a.children i).Pairwise (· < ·)
  /-- Only children are listed. -/
  parent?_of_mem : ∀ i, ∀ j ∈ a.children i, a.parent? j = some i

/-- `a'` is `a` with a node under `parent`: the new node comes last in the arena and on the list of
its parent, and nothing else has changed. -/
structure Extended (parent : Nat) (kind : NodeKind) (a a' : Arena) : Prop where
  size_eq : a'.size = a.size + 1
  new : a'.nodes[a.size]? = some { kind, parent := some parent, children := [] }
  old : ∀ i < a.size, a'.nodes[i]? = a.nodes[i]?.map fun n =>
    if i = parent then { n with children := n.children ++ [a.size] } else n

/-- The walks from a node end without following a number that no node has.  They find what is found
in the query that the arena stores. -/
structure Walkable (a : Arena) (i : Nat) : Prop where
  closest : ∀ steps, a.size ≤ steps → a.closest steps i = .ok (a.query.closest? i)
  columns : ∀ steps, a.size ≤ steps → ∀ scope,
    a.gather visitColumn steps scope i = .ok (a.query.columnsWithin a.size scope i)
  links : ∀ steps, a.size ≤ steps → a.gather visitLink steps () i =
    .ok ((a.query.below i).filterMap fun i => (a.query.kind? i).bind NodeKind.link?)

variable {a : Arena} {parent i : Nat} {kind : NodeKind}

theorem Reachable.wellLinked (h : a.Reachable) : a.WellLinked where
  root_lt := by
    obtain ⟨name, hname⟩ := h.query.kind?_root
    obtain ⟨n, hn, -⟩ := Option.map_eq_some_iff.1 hname
    rw [← size_query]
    exact (Array.getElem?_eq_some_iff.1 hn).1
  parent?_eq_none_iff := by
    intro i hi
    rw [← parent?_query]
    exact h.query.parent?_eq_none_iff (a.size_query.symm ▸ hi)
  listed := by
    intro i parent hp
    rw [← parent?_query] at hp
    have hmem : i ∈ a.query.children parent := Query.mem_children_iff.2 hp
    have hnodup : (a.query.children parent).Nodup :=
      (Query.children_pairwise _ _).imp fun hlt => Nat.ne_of_lt hlt
    rw [h.children_eq]
    exact ⟨h.query.ordered i parent hp, List.count_eq_one_of_mem hnodup hmem⟩
  increasing := by
    intro i
    rw [h.children_eq]
    exact Query.children_pairwise _ _
  parent?_of_mem := by
    intro i j hj
    rw [h.children_eq] at hj
    rw [← parent?_query]
    exact Query.mem_children_iff.1 hj

theorem extended_add (h : parent < a.size) (kind : NodeKind) :
    Extended parent kind a (a.add parent kind) where
  size_eq := by
    rw [← size_query, query_add, Query.size_add (a.size_query.symm ▸ h), size_query]
  new := by rw [getElem?_add h, if_pos rfl]
  old := by
    intro i hi
    rw [getElem?_add h, if_neg (Nat.ne_of_lt hi)]

theorem Reachable.walkable (h : a.Reachable) (hi : i < a.size) : a.Walkable i where
  closest := by
    intro steps hsteps
    rw [h.closest_eq hi (Nat.lt_of_lt_of_le hi hsteps) hi, Query.closest?, size_query]
  columns := by
    intro steps hsteps scope
    rw [h.gather_eq visitColumn scope hi (Nat.le_add_left_of_le hsteps) (Nat.le_add_left _ i),
      Query.columnsWithin_eq_gather]
  links := by
    intro steps hsteps
    rw [h.gather_eq visitLink () hi (Nat.le_add_left_of_le hsteps) (Nat.le_add_left _ i),
      ← Query.links_eq_gather, Query.below, size_query]

/-- **What holds of the links after any additions.**  Node 0 is the only one without a parent.
Every other node stands under an older one, which lists it exactly once, and the lists grow and
hold nothing but children, those that are found by looking through all nodes.  An addition puts the
new node at the end of the list of its parent and changes nothing else.  So from every node the
walks up to the closest entity and down to the columns and to the linked entities end, and none
follows a number that no node has. -/
theorem Reachable.linked_and_walkable (h : a.Reachable) :
    a.WellLinked ∧ (∀ i, a.children i = a.query.children i) ∧
      (∀ parent < a.size, ∀ kind, Extended parent kind a (a.add parent kind)) ∧
      ∀ i < a.size, a.Walkable i :=
  ⟨h.wellLinked, h.children_eq, fun _ hp kind => extended_add hp kind, fun _ hi => h.walkable hi⟩

/-- An arena with linked entities under each other and beside a filter, and a condition with two
values. -/
def branchedArena : Arena :=
  let a := ofEntity "account"
  let a := a.add Query.root (.link ⟨"contact", some "pc"⟩)
  let a := a.add Query.root .filter
  let a := a.add 2 (.link ⟨"lead", none⟩)
  let a := a.add 3 (.condition ⟨"name", "in", "", "", none⟩)
  let a := a.add 5 (.value "x")
  let a := a.add 4 (.selected "subject" none)
  let a := a.add 5 (.value "y")
  a.add 2 (.selected "fullname" none)

/-- The root entity lists the linked entity and the filter, the condition lists its values, and the
walks go over the branches. -/
theorem linked_and_walkable_of_branched :
    branchedArena.Reachable ∧ 8 < branchedArena.size ∧
      branchedArena.children Query.root = [2, 3] ∧ branchedArena.children 5 = [6, 8] ∧
      branchedArena.WellLinked ∧
      Extended 5 (.value "z") branchedArena (branchedArena.add 5 (.value "z")) ∧
      branchedArena.closest 10 8 = .ok (some Query.root) ∧
      branchedArena.gather visitColumn 10 none Query.root =
        .ok [⟨"subject", none, some "lead"⟩, ⟨"fullname", none, some "pc"⟩] ∧
      branchedArena.Walkable 8 := by
  have h : branchedArena.Reachable :=
    .add 2 (by decide) trivial <| .add 5 (by decide) trivial <| .add 4 (by decide) trivial <|
      .add 5 (by decide) trivial <| .add 3 (by decide) trivial <| .add 2 (by decide) trivial <|
      .add Query.root (by decide) trivial <| .add Query.root (by decide) trivial <|
      .ofEntity "account"
  have hsize : branchedArena.size = 10 := by decide +kernel
  have h8 : 8 < branchedArena.size := by omega
  obtain ⟨hlinked, hchildren, hextended, hwalkable⟩ := h.linked_and_walkable
  refine ⟨h, h8, by decide +kernel, by decide +kernel, hlinked, ?_, ?_, ?_, hwalkable 8 h8⟩
  · exact hextended 5 (by omega) _
  · rw [(hwalkable 8 h8).closest 10 (by omega)]
    decide +kernel
  · rw [(hwalkable Query.root hlinked.root_lt).columns 10 (by omega)]
    decide +kernel

end Arena

/-- Every query that can arise is stored by an arena that can. -/
theorem Query.Reachable.exists_arena {q : Query} (h : q.Reachable) :
    ∃ a : Arena, a.Reachable ∧ a.query = q := by
  induction h with
  | ofEntity name => exact ⟨_, .ofEntity name, Arena.query_ofEntity name⟩
  | add parent hp hk _ ih =>
    obtain ⟨a, ha, rfl⟩ := ih
    exact ⟨_, .add parent (a.size_query ▸ hp) hk ha, Arena.query_add a parent _⟩
  | setCondition i c _ ih =>
    obtain ⟨a, ha, rfl⟩ := ih
    exact ⟨_, .setCondition i c ha, Arena.query_setCondition a i c⟩

end QueryEditor
