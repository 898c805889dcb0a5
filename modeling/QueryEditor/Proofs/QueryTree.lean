import Mathlib.Data.List.Basic
import QueryEditor.Query.Tree

/-!
# What adding nodes changes

A node that is added under another becomes its last child; every node that was there keeps its
kind and its children.  From this follows what `Query.addValues` does to the children of a node
(`Query.children_addValues`, `Query.map_kind?_addValues`) and to the texts of the value nodes
among them (`Query.values_addValues`).
-/

namespace QueryEditor

namespace Query

variable {q : Query} {parent node i : Nat} {kind : NodeKind}

theorem size_add (h : parent < q.size) : (q.add parent kind).size = q.size + 1 := by
  rw [add, if_pos h]
  simp [size]

theorem kind?_add_of_lt (h : i < q.size) : (q.add parent kind).kind? i = q.kind? i := by
  unfold add
  split
  · have hi : i ≠ q.nodes.size := Nat.ne_of_lt h
    simp [kind?, Array.getElem?_push, hi]
  · rfl

theorem kind?_add_size (h : parent < q.size) : (q.add parent kind).kind? q.size = some kind := by
  rw [add, if_pos h]
  simp [kind?, size]

theorem parent?_add_of_lt (h : i < q.size) : (q.add parent kind).parent? i = q.parent? i := by
  unfold add
  split
  · have hi : i ≠ q.nodes.size := Nat.ne_of_lt h
    simp [parent?, Array.getElem?_push, hi]
  · rfl

theorem parent?_add_size (h : parent < q.size) :
    (q.add parent kind).parent? q.size = some parent := by
  rw [add, if_pos h]
  simp [parent?, size]

theorem lt_size_of_mem_children (h : i ∈ q.children node) : i < q.size :=
  List.mem_range.1 (List.mem_filter.1 h).1

/-- The new node becomes the last child of its parent and of no other node. -/
theorem children_add (h : parent < q.size) :
    (q.add parent kind).children node =
      q.children node ++ if parent = node then [q.size] else [] := by
  have hold : (List.range q.size).filter (fun i => (q.add parent kind).parent? i == some node) =
      q.children node := by
    refine List.filter_congr fun i hi => ?_
    rw [parent?_add_of_lt (List.mem_range.1 hi)]
  rw [children, size_add h, List.range_succ, List.filter_append, hold]
  congr 1
  by_cases hp : parent = node
  · subst hp
    simp [parent?_add_size h]
  · simp [parent?_add_size h, hp]

theorem values_add (h : parent < q.size) :
    (q.add parent kind).values node =
      q.values node ++ if parent = node then kind.value?.toList else [] := by
  have hold : (q.children node).filterMap
      (fun i => ((q.add parent kind).kind? i).bind NodeKind.value?) = q.values node := by
    refine List.filterMap_congr fun i hi => ?_
    rw [kind?_add_of_lt (lt_size_of_mem_children hi)]
  rw [values, children_add h, List.filterMap_append, hold]
  congr 1
  by_cases hp : parent = node
  · cases hv : kind.value? <;> simp [hp, kind?_add_size (hp ▸ h), hv]
  · simp [hp]

/-! ### Several nodes -/

theorem lt_size_add (h : i < q.size) : i < (q.add parent kind).size := by
  unfold add
  split
  · simpa [size] using Nat.lt_succ_of_lt h
  · exact h

/-- Adds nodes of these kinds under a node. -/
def addAll (q : Query) (parent : Nat) (kinds : List NodeKind) : Query :=
  kinds.foldl (fun q kind => q.add parent kind) q

section AddAll

variable {kinds : List NodeKind}

theorem addAll_cons (q : Query) (parent : Nat) (kind : NodeKind) (kinds : List NodeKind) :
    q.addAll parent (kind :: kinds) = (q.add parent kind).addAll parent kinds := rfl

theorem size_addAll (h : parent < q.size) :
    (q.addAll parent kinds).size = q.size + kinds.length := by
  induction kinds generalizing q with
  | nil => rfl
  | cons kind kinds ih =>
    rw [addAll_cons, ih (lt_size_add h), size_add h, List.length_cons]
    omega

theorem kind?_addAll_of_lt (h : i < q.size) : (q.addAll parent kinds).kind? i = q.kind? i := by
  induction kinds generalizing q with
  | nil => rfl
  | cons kind kinds ih => rw [addAll_cons, ih (lt_size_add h), kind?_add_of_lt h]

theorem parent?_addAll_of_lt (h : i < q.size) :
    (q.addAll parent kinds).parent? i = q.parent? i := by
  induction kinds generalizing q with
  | nil => rfl
  | cons kind kinds ih => rw [addAll_cons, ih (lt_size_add h), parent?_add_of_lt h]

/-- The new nodes become the last children of their parent and of no other node. -/
theorem children_addAll (h : parent < q.size) :
    (q.addAll parent kinds).children i =
      q.children i ++ if parent = i then List.range' q.size kinds.length else [] := by
  induction kinds generalizing q with
  | nil => simp [addAll]
  | cons kind kinds ih =>
    rw [addAll_cons, ih (lt_size_add h), children_add h, size_add h, List.length_cons,
      List.range'_succ]
    split <;> simp

/-- The new nodes are of the kinds of the list, in order. -/
theorem map_kind?_addAll (h : parent < q.size) (kinds : List NodeKind) :
    (List.range' q.size kinds.length).map (q.addAll parent kinds).kind? = kinds.map some := by
  induction kinds generalizing q with
  | nil => rfl
  | cons kind kinds ih =>
    have hsize : (q.add parent kind).size = q.size + 1 := size_add h
    have hfirst : ((q.add parent kind).addAll parent kinds).kind? q.size = some kind := by
      rw [kind?_addAll_of_lt (by rw [hsize]; omega), kind?_add_size h]
    rw [addAll_cons, List.length_cons, List.range'_succ, List.map_cons, List.map_cons, hfirst,
      ← hsize, ih (lt_size_add h)]

/-- The new value nodes follow those that are there. -/
theorem values_addAll (h : parent < q.size) :
    (q.addAll parent kinds).values node =
      q.values node ++ if parent = node then kinds.filterMap NodeKind.value? else [] := by
  induction kinds generalizing q with
  | nil => simp [addAll]
  | cons kind kinds ih =>
    rw [addAll_cons, ih (lt_size_add h), values_add h, List.append_assoc]
    split
    · cases hv : kind.value? <;> simp [hv]
    · rfl

end AddAll

/-! ### A list of value nodes -/

theorem addValues_eq_addAll (q : Query) (node : Nat) (texts : List String) :
    q.addValues node texts = q.addAll node (texts.map .value) := by
  rw [addValues, addAll, List.foldl_map]

theorem size_addValues {texts : List String} (h : node < q.size) :
    (q.addValues node texts).size = q.size + texts.length := by
  rw [addValues_eq_addAll, size_addAll h, List.length_map]

theorem kind?_addValues_of_lt {texts : List String} (h : i < q.size) :
    (q.addValues node texts).kind? i = q.kind? i := by
  rw [addValues_eq_addAll, kind?_addAll_of_lt h]

theorem parent?_addValues_of_lt {texts : List String} (h : i < q.size) :
    (q.addValues node texts).parent? i = q.parent? i := by
  rw [addValues_eq_addAll, parent?_addAll_of_lt h]

/-- The new nodes become the last children of their node and of no other. -/
theorem children_addValues {texts : List String} (h : node < q.size) :
    (q.addValues node texts).children i =
      q.children i ++ if node = i then List.range' q.size texts.length else [] := by
  rw [addValues_eq_addAll, children_addAll h, List.length_map]

/-- The new nodes hold the texts in order. -/
theorem map_kind?_addValues {texts : List String} (h : node < q.size) :
    (List.range' q.size texts.length).map (q.addValues node texts).kind? =
      texts.map fun text => some (.value text) := by
  have hkinds := map_kind?_addAll h (texts.map .value)
  rwa [List.length_map, List.map_map, ← addValues_eq_addAll] at hkinds

/-- Value nodes are added after those that are there, in the order of the list. -/
theorem values_addValues {texts : List String} (h : node < q.size) :
    (q.addValues node texts).values node = q.values node ++ texts := by
  have htexts : (texts.map NodeKind.value).filterMap NodeKind.value? = texts := by
    rw [List.filterMap_map]
    exact List.filterMap_some
  rw [addValues_eq_addAll, values_addAll h, if_pos rfl, htexts]

/-- A node without children has no value nodes. -/
theorem values_eq_nil (h : q.children node = []) : q.values node = [] := by
  rw [values, h]
  rfl

end Query

end QueryEditor
