import QueryEditor.Condition.Basic
import QueryEditor.Query.Column

/-!
# The tree of a query

A `Query` is a tree whose nodes are numbered in the order in which they are added.  Node 0 is
the query itself and node 1 its root entity; below it stand linked entities, selected
attributes, filters, conditions and the values of conditions.  A node knows its parent, which
was there before it; its `Query.children` are the later nodes with that parent.
-/

namespace QueryEditor

/-- An entity joined to the query. -/
structure Link where
  name : String
  /-- The name it goes by in the query instead of its own. -/
  ownAlias : Option String
  deriving DecidableEq

/-- The name by which a condition refers to a linked entity. -/
def Link.scopeName (l : Link) : String := l.ownAlias.getD l.name

/-- Writes a linked entity. -/
def Link.toJson (l : Link) : Json :=
  .object
    [ .always "alias" ((l.ownAlias.map Json.text).getD .null),
      .always "name" (.text l.name) ]

/-- What a node stands for. -/
inductive NodeKind
  | query
  | entity (name : String)
  | link (l : Link)
  | selected (name : String) (ownAlias : Option String)
  | filter
  | condition (c : Condition)
  | value (text : String)
  deriving DecidableEq

namespace NodeKind

/-- The entity that a node brings into the query. -/
def schema? : NodeKind → Option String
  | entity name => some name
  | link l => some l.name
  | _ => none

/-- The linked entity that a node stands for. -/
def link? : NodeKind → Option Link
  | link l => some l
  | _ => none

/-- The condition that a node stands for. -/
def condition? : NodeKind → Option Condition
  | condition c => some c
  | _ => none

/-- The text of a value node. -/
def value? : NodeKind → Option String
  | value text => some text
  | _ => none

end NodeKind

/-- A node of a query. -/
structure Node where
  kind : NodeKind
  /-- The node it stands under. -/
  parent : Option Nat
  deriving DecidableEq

/-- The nodes of a query in the order in which they were added. -/
structure Query where
  nodes : Array Node
  deriving DecidableEq

namespace Query

/-- The number of the root entity. -/
def root : Nat := 1

/-- A query on one entity. -/
def ofEntity (name : String) : Query := ⟨#[⟨.query, none⟩, ⟨.entity name, some 0⟩]⟩

/-- The number of nodes, which the next node will have. -/
def size (q : Query) : Nat := q.nodes.size

/-- What a node stands for. -/
def kind? (q : Query) (node : Nat) : Option NodeKind := q.nodes[node]?.map (·.kind)

/-- The node that a node stands under. -/
def parent? (q : Query) (node : Nat) : Option Nat := q.nodes[node]?.bind (·.parent)

/-- Adds a node under a node that is there.  The number of the parent is taken on trust: at one that
no node has the program stops, except that the number of the new node puts it under itself.  Here
nothing is added then, and `Query.Reachable` has no such step. -/
def add (q : Query) (parent : Nat) (kind : NodeKind) : Query :=
  if parent < q.size then ⟨q.nodes.push ⟨kind, some parent⟩⟩ else q

/-- Adds value nodes under a node. -/
def addValues (q : Query) (node : Nat) (values : List String) : Query :=
  values.foldl (fun q text => q.add node (.value text)) q

/-- The nodes under a node, in the order in which they were added. -/
def children (q : Query) (node : Nat) : List Nat :=
  (List.range q.size).filter fun i => q.parent? i == some node

/-- The texts of the value nodes under a node. -/
def values (q : Query) (node : Nat) : List String :=
  (q.children node).filterMap fun i => (q.kind? i).bind NodeKind.value?

/-- The condition at a node. -/
def condition? (q : Query) (node : Nat) : Option Condition :=
  (q.kind? node).bind NodeKind.condition?

/-- Puts another condition at a condition's node. -/
def setCondition (q : Query) (node : Nat) (c : Condition) : Query :=
  if (q.condition? node).isSome then
    ⟨q.nodes.modify node fun n => { n with kind := .condition c }⟩
  else q

/-- The name of the root entity. -/
def rootName (q : Query) : String := ((q.kind? root).bind NodeKind.schema?).getD ""

/-! ### Looking up -/

/-- The closest entity or linked entity above a node, at most `steps` levels up. -/
def closestWithin (q : Query) : Nat → Nat → Option Nat
  | 0, _ => none
  | steps + 1, node => (q.parent? node).bind fun p =>
    if ((q.kind? p).bind NodeKind.schema?).isSome then some p else closestWithin q steps p

/-- The closest entity or linked entity above a node. -/
def closest? (q : Query) (node : Nat) : Option Nat := q.closestWithin q.size node

/-- The name of the closest entity or linked entity above a node. -/
def enclosing? (q : Query) (node : Nat) : Option String :=
  (q.closest? node).bind fun i => (q.kind? i).bind NodeKind.schema?

/-! ### Looking down -/

/-- The nodes below a node, each before those below it, at most `levels` levels down. -/
def belowWithin (q : Query) : Nat → Nat → List Nat
  | 0, _ => []
  | levels + 1, node => (q.children node).flatMap fun i => i :: belowWithin q levels i

/-- The nodes below a node, each before those below it. -/
def below (q : Query) (node : Nat) : List Nat := q.belowWithin q.size node

/-- The linked entities that a condition under `node` may be about: all of them where the root
entity is the closest, none elsewhere. -/
def linkedEntities (q : Query) (node : Nat) : List Link :=
  if q.closest? node = some root then
    (q.below root).filterMap fun i => (q.kind? i).bind NodeKind.link?
  else []

/-- The attributes selected directly under a node or under linked entities there, at most
`levels` levels down; `scope` is the linked entity that owns them. -/
def columnsWithin (q : Query) : Nat → Option String → Nat → List Column
  | 0, _, _ => []
  | levels + 1, scope, node => (q.children node).flatMap fun i => match q.kind? i with
    | some (.selected name ownAlias) => [{ name, ownAlias, entityAlias := scope }]
    | some (.link l) => columnsWithin q levels (some l.scopeName) i
    | _ => []

/-- Every selected attribute. -/
def columns (q : Query) : List Column := q.columnsWithin q.size none root

end Query

end QueryEditor
