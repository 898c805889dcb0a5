import QueryEditor.Guid
import QueryEditor.Json.Basic

/-!
# Printing JSON

`Json.pretty` prints a value over several lines, each level indented by two spaces.  Characters
outside ASCII are printed as they are.
-/

namespace QueryEditor

namespace Json

/-- How a character is written in a string literal. -/
def escape (c : Char) : List Char :=
  match c with
  | '"' => ['\\', '"']
  | '\\' => ['\\', '\\']
  | '\x08' => ['\\', 'b']
  | '\x0c' => ['\\', 'f']
  | '\n' => ['\\', 'n']
  | '\r' => ['\\', 'r']
  | '\t' => ['\\', 't']
  | c => if c.toNat < 0x20 then ['\\', 'u'] ++ Guid.hexDigits 4 c.toNat else [c]

/-- The string literal of a text. -/
def quoted (s : String) : List Char := '"' :: s.toList.flatMap escape ++ ['"']

/-- A new line at some level. -/
def newline (level : Nat) : List Char := '\n' :: List.replicate (2 * level) ' '

mutual

/-- Prints a value that starts at some level. -/
def prettyAt (level : Nat) : Json → List Char
  | .null => "null".toList
  | .bool b => (if b then "true" else "false").toList
  | .int n => (toString n).toList
  | .real numeral => numeral.toList
  | .str s => quoted (s.getD "")
  | .arr [] => ['[', ']']
  | .arr items => '[' :: prettyItems (level + 1) items ++ newline level ++ [']']
  | .obj [] => ['\x7b', '\x7d']
  | .obj members => '\x7b' :: prettyMembers (level + 1) members ++ newline level ++ ['\x7d']

/-- Prints the items of an array, each on lines of its own. -/
def prettyItems (level : Nat) : List Json → List Char
  | [] => []
  | [v] => newline level ++ prettyAt level v
  | v :: vs => newline level ++ prettyAt level v ++ ',' :: prettyItems level vs

/-- Prints the members of an object, each on lines of its own. -/
def prettyMembers (level : Nat) : List (Option String × Json) → List Char
  | [] => []
  | [(name, v)] => newline level ++ quoted (name.getD "") ++ [':', ' '] ++ prettyAt level v
  | (name, v) :: ms =>
    newline level ++ quoted (name.getD "") ++ [':', ' '] ++ prettyAt level v ++
      ',' :: prettyMembers level ms

end

/-- Prints a value. -/
def pretty (v : Json) : String := String.ofList (prettyAt 0 v)

end Json

end QueryEditor
