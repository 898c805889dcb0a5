/-!
# TOML values

A `Toml` value is a text, a truth value, a list or a table.  Numbers and moments are told apart
from them, but what they say is of no use here and is not kept.
-/

namespace QueryEditor

/-- A TOML value. -/
inductive Toml
  | string (s : String)
  | boolean (b : Bool)
  | number
  | moment
  | array (items : List Toml)
  | table (entries : List (String × Toml))

end QueryEditor
