import QueryEditor.Console.Arguments
import QueryEditor.Console.Config
import QueryEditor.Console.Snapshot
import QueryEditor.Scope

/-!
# What a command works on

A `Session` is the settings, the catalog and the records that the files of a run describe.  A
`Site` is the condition of the command line in a small query of its own.
-/

namespace QueryEditor

namespace Console

/-- What the files of a run describe. -/
structure Session where
  options : Options
  settings : Settings
  catalog : Catalog
  records : List Record

/-- Reads the files that the options name. -/
def Session.load (files : Files) (o : Options) : Except String Session := do
  let config ← Config.load files o.config
  let settings ← config.settings
  let snapshot ← Snapshot.load files o.catalog
  .ok { options := o, settings, catalog := snapshot.catalog, records := snapshot.records }

/-- A condition in a query. -/
structure Site where
  query : Query
  /-- The node of the condition. -/
  node : Nat
  condition : Condition

/-- Reads a linked entity: a name, or a name, a colon and an alias. -/
def linkOfText (text : String) : Link :=
  match Text.cut ':' text.toList with
  | some (name, ownAlias) => ⟨String.ofList name, some (String.ofList ownAlias)⟩
  | none => ⟨text, none⟩

namespace ConditionArguments

/-- The condition. -/
def condition (c : ConditionArguments) : Condition where
  attributeName := c.attributeName
  operator := c.operator
  value := c.value
  valueOf := c.valueOf
  entityName := c.scope

/-- Puts the condition into a filter under the root entity, beside the linked entities. -/
def site (c : ConditionArguments) : Site :=
  let linked := c.links.foldl (fun q text => q.add Query.root (.link (linkOfText text)))
    (Query.ofEntity c.entity)
  let filtered := linked.add Query.root .filter
  let placed := filtered.add linked.size (.condition c.condition)
  { query := placed.addValues filtered.size c.nodes
    node := filtered.size
    condition := c.condition }

end ConditionArguments

/-- The attributes of the entity that the condition is about, if they are loaded. -/
def Session.attributesOf (s : Session) (site : Site) : Option (List Attribute) :=
  (s.catalog.attributesFor site.query site.node site.condition.entityName).1

end Console

end QueryEditor
