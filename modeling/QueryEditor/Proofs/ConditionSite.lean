import QueryEditor.Console.Site
import QueryEditor.Proofs.QueryTree

/-!
# The query of a command line

The condition of a command line stands in a filter under the root entity, after the linked entities
and with its value nodes under it (`Console.ConditionArguments.children_site`).  So the entity that
it is about can be read off the command line.

* `Console.ConditionArguments.linkedEntities_site` : the condition may be about any of the linked
  entities.
* `Console.ConditionArguments.schemaOf?_site` : **it is about the one that its scope names**, or
  else about the root entity.
* `Console.Session.attributesOf_site` : the attributes it is checked with are those of this entity.
-/

namespace QueryEditor

namespace Query

variable {q : Query} {i : Nat}

theorem children_ofEntity (name : String) (i : Nat) :
    (ofEntity name).children i = if 0 = i then [1] else [] := by
  have hroot : (ofEntity name).parent? 1 = some 0 := rfl
  have hquery : (ofEntity name).parent? 0 = none := rfl
  have hsize : (ofEntity name).size = 2 := rfl
  rw [children, hsize, List.range_succ, List.range_succ, List.range_zero]
  by_cases h : 0 = i
  · subst h
    rfl
  · simp [hroot, hquery, h]

theorem root_lt_size_ofEntity (name : String) : root < (ofEntity name).size := Nat.lt_succ_self 1

theorem filterMap_kind?_bind {α : Type} (q : Query) (f : NodeKind → Option α) (nodes : List Nat) :
    nodes.filterMap (fun i => (q.kind? i).bind f) = (nodes.map q.kind?).filterMap (·.bind f) := by
  rw [List.filterMap_map]
  rfl

/-- Nothing is below a node without children. -/
theorem belowWithin_of_children_eq_nil (h : q.children i = []) (levels : Nat) :
    q.belowWithin levels i = [] := by
  cases levels with
  | zero => rfl
  | succ levels => rw [belowWithin, h, List.flatMap_nil]

/-- Below a node there are its children only, if they have none. -/
theorem belowWithin_of_leaves (h : ∀ j ∈ q.children i, q.children j = []) (levels : Nat) :
    q.belowWithin (levels + 1) i = q.children i := by
  rw [belowWithin]
  calc (q.children i).flatMap (fun j => j :: q.belowWithin levels j)
      = (q.children i).flatMap (fun j => [j]) :=
        List.flatMap_congr fun j hj => by rw [belowWithin_of_children_eq_nil (h j hj)]
    _ = q.children i := List.flatMap_singleton' _

end Query

namespace Console

namespace ConditionArguments

variable (c : ConditionArguments)

/-- The linked entities of the command line. -/
def linked : List Link := c.links.map linkOfText

/-- The linked entity that the scope names: the first one that goes by it. -/
def selected? : Option Link :=
  c.scope.bind fun scope =>
    if Text.blank scope then none else c.linked.find? (·.scopeName == Text.trim scope)

/-- The entity that the condition is about. -/
def schema : String := (c.selected?.map (·.name)).getD c.entity

/-! ### The nodes of the query -/

/-- The root entity with the linked entities. -/
def linkedQuery : Query := (Query.ofEntity c.entity).addAll Query.root (c.linked.map .link)

/-- The same with an empty filter. -/
def filteredQuery : Query := c.linkedQuery.add Query.root .filter

/-- The same with the condition in the filter. -/
def placedQuery : Query := c.filteredQuery.add (c.links.length + 2) (.condition c.condition)

theorem size_linkedQuery : c.linkedQuery.size = c.links.length + 2 := by
  rw [linkedQuery, Query.size_addAll (Query.root_lt_size_ofEntity _), linked, List.length_map,
    List.length_map]
  exact Nat.add_comm 2 _

theorem root_lt_size_linkedQuery : Query.root < c.linkedQuery.size := by
  rw [size_linkedQuery, Query.root]
  omega

theorem size_filteredQuery : c.filteredQuery.size = c.links.length + 3 := by
  rw [filteredQuery, Query.size_add c.root_lt_size_linkedQuery, size_linkedQuery]

theorem filter_lt_size_filteredQuery : c.links.length + 2 < c.filteredQuery.size := by
  rw [size_filteredQuery]
  omega

theorem size_placedQuery : c.placedQuery.size = c.links.length + 4 := by
  rw [placedQuery, Query.size_add c.filter_lt_size_filteredQuery, size_filteredQuery]

theorem node_lt_size_placedQuery : c.links.length + 3 < c.placedQuery.size := by
  rw [size_placedQuery]
  omega

theorem node_site : c.site.node = c.links.length + 3 := by
  rw [← size_filteredQuery, filteredQuery, linkedQuery, linked, Query.addAll, List.foldl_map,
    List.foldl_map]
  rfl

theorem query_site : c.site.query = c.placedQuery.addValues (c.links.length + 3) c.nodes := by
  rw [← size_filteredQuery, placedQuery, ← size_linkedQuery, filteredQuery, linkedQuery, linked,
    Query.addAll, List.foldl_map, List.foldl_map]
  rfl

/-- **What stands under the nodes of the query.** -/
theorem children_site (i : Nat) :
    c.site.query.children i =
      (if 0 = i then [1] else []) ++
        (if 1 = i then List.range' 2 c.links.length ++ [c.links.length + 2] else []) ++
        (if c.links.length + 2 = i then [c.links.length + 3] else []) ++
        if c.links.length + 3 = i then List.range' (c.links.length + 4) c.nodes.length else [] := by
  have hlength : (c.linked.map NodeKind.link).length = c.links.length := by
    rw [linked, List.length_map, List.length_map]
  rw [query_site, Query.children_addValues c.node_lt_size_placedQuery, placedQuery,
    Query.children_add c.filter_lt_size_filteredQuery, filteredQuery,
    Query.children_add c.root_lt_size_linkedQuery, linkedQuery,
    Query.children_addAll (Query.root_lt_size_ofEntity _), Query.children_ofEntity,
    ← linkedQuery, ← filteredQuery, ← placedQuery, size_placedQuery, size_filteredQuery,
    size_linkedQuery, hlength]
  change ((if 0 = i then [1] else []) ++ (if 1 = i then List.range' 2 c.links.length else [])) ++
    (if 1 = i then [c.links.length + 2] else []) ++ _ ++ _ = _
  by_cases hi : 1 = i <;> simp [hi]

/-! ### What the nodes stand for -/

theorem size_site : c.site.query.size = c.links.length + 4 + c.nodes.length := by
  rw [query_site, Query.size_addValues c.node_lt_size_placedQuery, size_placedQuery]

/-- A node that was there before the value nodes. -/
theorem kind?_site_of_lt {i : Nat} (h : i < c.placedQuery.size) :
    c.site.query.kind? i = c.placedQuery.kind? i := by
  rw [query_site, Query.kind?_addValues_of_lt h]

theorem parent?_site_of_lt {i : Nat} (h : i < c.placedQuery.size) :
    c.site.query.parent? i = c.placedQuery.parent? i := by
  rw [query_site, Query.parent?_addValues_of_lt h]

/-- A node that was there before the filter. -/
theorem kind?_site_of_lt_linked {i : Nat} (h : i < c.linkedQuery.size) :
    c.site.query.kind? i = c.linkedQuery.kind? i := by
  have hfiltered : i < c.filteredQuery.size := Query.lt_size_add h
  rw [kind?_site_of_lt c (Query.lt_size_add hfiltered), placedQuery,
    Query.kind?_add_of_lt hfiltered, filteredQuery, Query.kind?_add_of_lt h]

theorem kind?_root_site : c.site.query.kind? Query.root = some (.entity c.entity) := by
  rw [kind?_site_of_lt_linked c c.root_lt_size_linkedQuery, linkedQuery,
    Query.kind?_addAll_of_lt (Query.root_lt_size_ofEntity _)]
  rfl

theorem kind?_links_site :
    (List.range' 2 c.links.length).map c.site.query.kind? =
      c.linked.map fun l => some (.link l) := by
  have hkinds := Query.map_kind?_addAll (Query.root_lt_size_ofEntity c.entity)
    (c.linked.map .link)
  rw [← linkedQuery, List.length_map, linked, List.length_map, ← linked, List.map_map] at hkinds
  rw [← show _ = c.linked.map fun l => some (NodeKind.link l) from hkinds]
  refine List.map_congr_left fun i hi => kind?_site_of_lt_linked c ?_
  rw [size_linkedQuery]
  obtain ⟨k, hk, rfl⟩ := List.mem_range'.1 hi
  omega

theorem kind?_filter_site : c.site.query.kind? (c.links.length + 2) = some .filter := by
  rw [kind?_site_of_lt c (Query.lt_size_add c.filter_lt_size_filteredQuery), placedQuery,
    Query.kind?_add_of_lt c.filter_lt_size_filteredQuery, filteredQuery, ← size_linkedQuery,
    Query.kind?_add_size c.root_lt_size_linkedQuery]

theorem kind?_node_site :
    c.site.query.kind? (c.links.length + 3) = some (.condition c.condition) := by
  rw [kind?_site_of_lt c c.node_lt_size_placedQuery, placedQuery, ← size_filteredQuery,
    Query.kind?_add_size c.filter_lt_size_filteredQuery]

theorem kind?_values_site :
    (List.range' (c.links.length + 4) c.nodes.length).map c.site.query.kind? =
      c.nodes.map fun text => some (.value text) := by
  rw [query_site, ← size_placedQuery, Query.map_kind?_addValues c.node_lt_size_placedQuery]

theorem parent?_node_site :
    c.site.query.parent? (c.links.length + 3) = some (c.links.length + 2) := by
  rw [parent?_site_of_lt c c.node_lt_size_placedQuery, placedQuery, ← size_filteredQuery,
    Query.parent?_add_size c.filter_lt_size_filteredQuery]

theorem parent?_filter_site :
    c.site.query.parent? (c.links.length + 2) = some Query.root := by
  rw [parent?_site_of_lt c (Query.lt_size_add c.filter_lt_size_filteredQuery), placedQuery,
    Query.parent?_add_of_lt c.filter_lt_size_filteredQuery, filteredQuery, ← size_linkedQuery,
    Query.parent?_add_size c.root_lt_size_linkedQuery]

/-! ### Looking around from the condition -/

/-- Only value nodes stand under the condition. -/
theorem children_node_site :
    c.site.query.children c.site.node =
      List.range' (c.links.length + 4) c.nodes.length := by
  rw [children_site, node_site, if_neg (by omega), if_neg (by omega), if_neg (by omega),
    if_pos rfl]
  rfl

/-- The condition stands under the root entity. -/
theorem closest?_site : c.site.query.closest? c.site.node = some Query.root := by
  rw [Query.closest?, size_site, node_site,
    show c.links.length + 4 + c.nodes.length = c.links.length + 2 + c.nodes.length + 1 + 1 by omega,
    Query.closestWithin, parent?_node_site, Option.bind_some, kind?_filter_site,
    if_neg (by exact Bool.false_ne_true), Query.closestWithin, parent?_filter_site,
    Option.bind_some, kind?_root_site]
  rfl

theorem enclosing?_site : c.site.query.enclosing? c.site.node = some c.entity := by
  rw [Query.enclosing?, closest?_site, Option.bind_some, kind?_root_site]
  rfl

theorem below_root_site :
    c.site.query.below Query.root =
      List.range' 2 c.links.length ++
        (c.links.length + 2) :: (c.links.length + 3) ::
          List.range' (c.links.length + 4) c.nodes.length := by
  have hsize : c.site.query.size = c.links.length + 1 + c.nodes.length + 1 + 1 + 1 := by
    rw [size_site]
    omega
  -- The linked entities have no children, the filter has the condition, which has the values.
  have hlinks : ∀ i ∈ List.range' 2 c.links.length, ∀ levels,
      c.site.query.belowWithin levels i = [] := by
    intro i hi
    obtain ⟨k, hk, rfl⟩ := List.mem_range'.1 hi
    refine Query.belowWithin_of_children_eq_nil ?_
    rw [children_site, if_neg (by omega), if_neg (by omega), if_neg (by omega),
      if_neg (by omega)]
    rfl
  have hvalues : ∀ i ∈ c.site.query.children (c.links.length + 3),
      c.site.query.children i = [] := by
    rw [← node_site, children_node_site]
    intro i hi
    obtain ⟨k, hk, rfl⟩ := List.mem_range'.1 hi
    rw [children_site, if_neg (by omega), if_neg (by omega), if_neg (by omega),
      if_neg (by omega)]
    rfl
  have hfilter : c.site.query.children (c.links.length + 2) = [c.links.length + 3] := by
    rw [children_site, if_neg (by omega), if_neg (by omega), if_pos rfl, if_neg (by omega)]
    rfl
  have hroot : c.site.query.children Query.root =
      List.range' 2 c.links.length ++ [c.links.length + 2] := by
    rw [children_site, Query.root, if_neg (by omega), if_pos rfl, if_neg (by omega),
      if_neg (by omega), List.append_nil, List.append_nil, List.nil_append]
  rw [Query.below, hsize, Query.belowWithin, hroot, List.flatMap_append, List.flatMap_singleton,
    Query.belowWithin, hfilter, List.flatMap_singleton, Query.belowWithin_of_leaves hvalues,
    ← node_site, children_node_site]
  congr 1
  calc (List.range' 2 c.links.length).flatMap (fun i => i :: c.site.query.belowWithin _ i)
      = (List.range' 2 c.links.length).flatMap (fun i => [i]) :=
        List.flatMap_congr fun i hi => by rw [hlinks i hi]
    _ = List.range' 2 c.links.length := List.flatMap_singleton' _

/-- **Every linked entity may be meant.** -/
theorem linkedEntities_site : c.site.query.linkedEntities c.site.node = c.linked := by
  have hlinks : (List.range' 2 c.links.length).filterMap
      (fun i => (c.site.query.kind? i).bind NodeKind.link?) = c.linked := by
    rw [Query.filterMap_kind?_bind, kind?_links_site, List.filterMap_map]
    exact List.filterMap_some
  have hvalues : (List.range' (c.links.length + 4) c.nodes.length).filterMap
      (fun i => (c.site.query.kind? i).bind NodeKind.link?) = [] := by
    rw [Query.filterMap_kind?_bind, kind?_values_site, List.filterMap_map]
    exact List.filterMap_eq_nil_iff.2 fun text _ => rfl
  rw [Query.linkedEntities, if_pos c.closest?_site, below_root_site, List.filterMap_append, hlinks,
    List.filterMap_cons_none (by rw [kind?_filter_site]; rfl),
    List.filterMap_cons_none (by rw [kind?_node_site]; rfl), hvalues, List.append_nil]

/-! ### The entity that the condition is about -/

theorem scopedLink?_site (scope : String) :
    c.site.query.scopedLink? c.site.node scope =
      if Text.blank scope then none
      else c.linked.find? (·.scopeName == Text.trim scope) := by
  rw [Query.scopedLink?, linkedEntities_site]

/-- **The condition is about the linked entity that the scope names**, and about the root entity
if it names none. -/
theorem schemaOf?_site : c.site.query.schemaOf? c.site.node c.scope = some c.schema := by
  have hscope : c.scope.bind (c.site.query.scopedLink? c.site.node) = c.selected? :=
    congrArg c.scope.bind (funext fun scope => c.scopedLink?_site scope)
  rw [Query.schemaOf?, hscope, enclosing?_site, schema]
  cases c.selected? <;> rfl

/-- The value nodes hold the texts of the command line. -/
theorem values_site : c.site.query.values c.site.node = c.nodes := by
  rw [Query.values, children_node_site, Query.filterMap_kind?_bind, kind?_values_site,
    List.filterMap_map]
  exact List.filterMap_some

theorem children_node_site_eq_nil_iff :
    c.site.query.children c.site.node = [] ↔ c.nodes = [] := by
  rw [children_node_site, List.range'_eq_nil_iff, List.length_eq_zero_iff]

theorem length_children_node_site :
    (c.site.query.children c.site.node).length = c.nodes.length := by
  rw [children_node_site, List.length_range']

end ConditionArguments

/-- **The condition is checked with the attributes of the entity that it is about.** -/
theorem Session.attributesOf_site (s : Session) (c : ConditionArguments) :
    s.attributesOf c.site = s.catalog.attributes? c.schema := by
  have hschema : c.site.query.schemaOf? c.site.node c.site.condition.entityName =
      some c.schema := c.schemaOf?_site
  rw [Session.attributesOf, Catalog.attributesFor, hschema]
  dsimp only
  split
  · next attributes h => exact h.symm
  · next h => exact h.symm

end Console

end QueryEditor
