/-!
# JSON values

`Json` is what a JSON text says, as it says it: members in order, repeated names kept, whole
numbers apart from all other numerals.  A string literal whose escapes name half of a surrogate
pair stands for no text; it is kept as `none`, so that a reader that has no use for it may pass
over it.
-/

namespace QueryEditor

/-- A JSON value. -/
inductive Json
  | null
  | bool (b : Bool)
  /-- A numeral without fraction and exponent, other than minus zero. -/
  | int (n : Int)
  /-- Any other numeral, as it is written. -/
  | real (numeral : String)
  | str (text : Option String)
  | arr (items : List Json)
  | obj (members : List (Option String × Json))
  deriving Inhabited

namespace Json

/-- A string literal that stands for a text. -/
def text (s : String) : Json := .str (some s)

/-- A list of texts. -/
def texts (ss : List String) : Json := .arr (ss.map text)

/-- What may become a member of an object. -/
abbrev Member := Option (String × Json)

/-- A member that is always there. -/
def Member.always (name : String) (value : Json) : Member := some (name, value)

/-- A member that is there when it has a value. -/
def Member.optional {α : Type} (name : String) (encode : α → Json) (value : Option α) : Member :=
  value.map fun a => (name, encode a)

/-- A member that is there when its list has an element. -/
def Member.nonempty {α : Type} (name : String) (encode : α → Json) (values : List α) : Member :=
  if values.isEmpty then none else some (name, .arr (values.map encode))

/-- An object with the members that are there.  Whoever writes one names them in alphabetical
order. -/
def object (members : List Member) : Json :=
  .obj ((members.filterMap id).map fun (name, value) => (some name, value))

/-- A signed 32-bit number. -/
def ofInt32 (n : Int32) : Json := .int n.toInt

/-- An unsigned 32-bit number. -/
def ofUInt32 (n : UInt32) : Json := .int n.toNat

/-- A natural number. -/
def ofNat (n : Nat) : Json := .int n

end Json

end QueryEditor
