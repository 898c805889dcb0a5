import QueryEditor.Json.Basic
import QueryEditor.Text.Numeral

/-!
# Records in JSON

A record with declared fields is written as an object or as the array of its fields in the order
of declaration.  In an object, members with other names are passed over and a field may stand
only once; in an array, fields may be missing only at the end.  `Json.record?` reads either
form, and a `Record` is then asked for one field after the other.
-/

namespace QueryEditor

namespace Json

/-- The declared fields that a record has. -/
abbrev Record := List (String × Json)

/-- The members with a declared name, if every name stands for a text. -/
def declared? (names : List String) : List (Option String × Json) → Option Record
  | [] => some []
  | (none, _) :: _ => none
  | (some name, v) :: ms => (declared? names ms).map fun r =>
      if names.contains name then (name, v) :: r else r

/-- Reads a record with these declared fields. -/
def record? (names : List String) : Json → Option Record
  | .obj members => (declared? names members).bind fun r =>
      if (r.map (·.1)).Nodup then some r else none
  | .arr items => if items.length ≤ names.length then some (names.zip items) else none
  | _ => none

/-- The value of a field. -/
def Record.field? (r : Record) (name : String) : Option Json :=
  (r.find? (·.1 == name)).map (·.2)

/-- A field that has to be there. -/
def Record.required? {α : Type} (r : Record) (name : String) (read : Json → Option α) : Option α :=
  (r.field? name).bind read

/-- A field that stands for `value` when it is missing. -/
def Record.default? {α : Type} (r : Record) (name : String) (value : α) (read : Json → Option α) :
    Option α :=
  match r.field? name with
  | none => some value
  | some v => read v

/-- Reads a value that may be null. -/
def nullable? {α : Type} (read : Json → Option α) : Json → Option (Option α)
  | .null => some none
  | v => (read v).map some

/-- A field that may be missing or null. -/
def Record.optional? {α : Type} (r : Record) (name : String) (read : Json → Option α) :
    Option (Option α) :=
  r.default? name none (nullable? read)

/-- Reads a text. -/
def text? : Json → Option String
  | .str s => s
  | _ => none

/-- Reads a truth value. -/
def bool? : Json → Option Bool
  | .bool b => some b
  | _ => none

/-- Reads a signed 32-bit number. -/
def int32? : Json → Option Int32
  | .int n => Numeral.narrow32? n
  | _ => none

/-- Reads an unsigned 32-bit number. -/
def uint32? : Json → Option UInt32
  | .int n => if 0 ≤ n ∧ n < UInt32.size then some (UInt32.ofNat n.toNat) else none
  | _ => none

/-- Reads a list. -/
def list? {α : Type} (read : Json → Option α) : Json → Option (List α)
  | .arr items => items.mapM read
  | _ => none

end Json

end QueryEditor
