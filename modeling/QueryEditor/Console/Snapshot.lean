import QueryEditor.Catalog
import QueryEditor.Console.Files
import QueryEditor.Json.Reader
import QueryEditor.Label.Source

/-!
# The metadata snapshot

A snapshot file lists entities and, if it likes, the names of records.
-/

namespace QueryEditor

namespace Record

/-- The declared fields. -/
def fieldNames : List String := ["entity", "id", "name"]

/-- Reads a record. -/
def ofJson? (j : Json) : Option Record := do
  let r ← j.record? fieldNames
  let entity ← r.required? "entity" Json.text?
  let id ← r.required? "id" fun v => (Json.text? v).bind Guid.read?
  let name ← r.required? "name" Json.text?
  some { entity, id, name }

end Record

namespace Console

/-- What a snapshot says. -/
structure Snapshot where
  catalog : Catalog
  records : List Record

namespace Snapshot

/-- Reads the records of a snapshot. -/
def recordsOfJson? (j : Json) : Option (List Record) := do
  let r ← j.record? ["records"]
  r.default? "records" [] (Json.list? Record.ofJson?)

/-- Reads the snapshot at a path. -/
def readAt (files : Files) (path : String) : Except String Snapshot :=
  match files path with
  | .error e => .error (unreadable path e)
  | .ok text =>
    let json := Json.read? text
    match Catalog.ofJson json with
    | .error e => .error s!"{path}: {e.message}"
    | .ok catalog => match json.bind recordsOfJson? with
      | some records => .ok { catalog, records }
      | none => .error s!"could not parse records in '{path}': not a list of records"

/-- Reads the named snapshot; without one nothing is known. -/
def load (files : Files) (path : Option String) : Except String Snapshot :=
  match path with
  | some path => readAt files path
  | none => .ok { catalog := .unavailable, records := [] }

end Snapshot

end Console

end QueryEditor
