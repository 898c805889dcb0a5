import QueryEditor.Catalog
import QueryEditor.Query.Tree

/-!
# The scope of a condition

A condition is about the entity it stands under, unless it names a linked entity.
`Query.schemaOf?` finds the entity, and `Catalog.attributesFor` its attributes; if these are not
loaded they are asked for.
-/

namespace QueryEditor

/-- The linked entity that a scope names, by alias or name. -/
def Query.scopedLink? (q : Query) (node : Nat) (scope : String) : Option Link :=
  if Text.blank scope then none
  else (q.linkedEntities node).find? (·.scopeName == Text.trim scope)

/-- The entity that a condition at `node` is about.  A scope that names no linked entity is
passed over. -/
def Query.schemaOf? (q : Query) (node : Nat) (scope : Option String) : Option String :=
  ((scope.bind (q.scopedLink? node)).map (·.name)).or (q.enclosing? node)

/-- The attributes of the entity that a condition at `node` is about, `none` while they are not
loaded.  Asks for them in that case.  A node under no entity has no attributes. -/
def Catalog.attributesFor (c : Catalog) (q : Query) (node : Nat) (scope : Option String) :
    Option (List Attribute) × Catalog :=
  match q.schemaOf? node scope with
  | none => (some [], c)
  | some schema => match c.attributes? schema with
    | some attributes => (some attributes, c)
    | none => (none, c.request schema)

end QueryEditor
