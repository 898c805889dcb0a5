import QueryEditor.Schema.Codec

/-!
# The catalog of entities

A `Catalog` holds what is known of each entity, ordered by name, and the names whose details
were asked for and have not arrived.  Before a connection nothing is known, not even which
entities there are (`Catalog.unavailable`).
-/

namespace QueryEditor

/-- The known entities and the details that were asked for. -/
structure Catalog where
  /-- The entities, their names strictly increasing. -/
  entities : List Entity
  /-- Whether it is known which entities there are. -/
  isListed : Bool
  /-- The names of entities whose details were asked for, in the order of asking. -/
  requests : List String
  deriving DecidableEq

/-- Why a snapshot makes no catalog. -/
inductive CatalogError
  /-- The text is no snapshot. -/
  | unreadable
  /-- Two entities have this name. -/
  | duplicateEntity (name : String)
  deriving DecidableEq

/-- What to tell the user. -/
def CatalogError.message : CatalogError → String
  | unreadable => "could not parse catalog snapshot: not a list of entities"
  | duplicateEntity name => s!"entity '{name}' appears more than once in the catalog"

namespace Catalog

/-- The catalog before a connection. -/
def unavailable : Catalog := ⟨[], false, []⟩

/-- Puts an entity in its place, over one of the same name. -/
def insert (e : Entity) : List Entity → List Entity
  | [] => [e]
  | f :: fs =>
    if e.logicalName < f.logicalName then e :: f :: fs
    else if e.logicalName = f.logicalName then e :: fs
    else f :: insert e fs

/-- Adds the entities of a list to those already known; the first whose name is known already
is an error. -/
def insertAll : List Entity → List Entity → Except CatalogError (List Entity)
  | known, [] => .ok known
  | known, e :: es =>
    if known.any (·.logicalName == e.logicalName) then .error (.duplicateEntity e.logicalName)
    else insertAll (insert e.adoptAttributes known) es

/-- The catalog of a list of entities with different names. -/
def ofEntities (es : List Entity) : Except CatalogError Catalog :=
  (insertAll [] es).map fun entities => ⟨entities, true, []⟩

/-- The declared fields of a snapshot. -/
def fieldNames : List String := ["entities"]

/-- Reads the entities of a snapshot. -/
def entitiesOfJson? (j : Json) : Option (List Entity) := do
  let r ← j.record? fieldNames
  r.required? "entities" (Json.list? Entity.ofJson?)

/-- The catalog that a snapshot describes. -/
def ofJson (j : Option Json) : Except CatalogError Catalog :=
  match j.bind entitiesOfJson? with
  | none => .error .unreadable
  | some es => ofEntities es

/-! ### Queries -/

/-- The entity with this name. -/
def entity? (c : Catalog) (name : String) : Option Entity :=
  c.entities.find? (·.logicalName == name)

/-- The attributes of an entity, if they are loaded. -/
def attributes? (c : Catalog) (name : String) : Option (List Attribute) :=
  (c.entity? name).bind (·.attributes)

/-- The names of all entities, if the list is available. -/
def names? (c : Catalog) : Option (List String) :=
  if c.isListed then some (c.entities.map (·.logicalName)) else none

/-- The first entity with this object type code. -/
def entityOfCode? (c : Catalog) (code : Int32) : Option Entity :=
  c.entities.find? (·.objectTypeCode == some code)

/-! ### Loading -/

/-- Asks for the details of an entity, once. -/
def request (c : Catalog) (name : String) : Catalog :=
  if c.requests.contains name then c else { c with requests := c.requests ++ [name] }

/-- Hands over the names that were asked for. -/
def takeRequests (c : Catalog) : List String × Catalog := (c.requests, { c with requests := [] })

/-- Takes in the details of an entity, over what was known of it. -/
def completeLoad (c : Catalog) (e : Entity) : Catalog where
  entities := insert e.adoptAttributes c.entities
  isListed := true
  requests := c.requests.filter (· != e.logicalName)

end Catalog

end QueryEditor
