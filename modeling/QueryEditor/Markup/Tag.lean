import QueryEditor.Markup.Escape

/-!
# Tags and their attributes

A `Tag` is the name of an element and the text in which its attributes stand.
`Tag.attributes?` takes that text apart.
-/

namespace QueryEditor

namespace Markup

/-- White space in markup. -/
def isSpace (c : Char) : Bool := c == ' ' || c == '\t' || c == '\r' || c == '\n'

/-- The inside of a start tag. -/
structure Tag where
  name : List Char
  /-- What follows the name. -/
  rest : List Char
  deriving DecidableEq, Repr

namespace Tag

/-- Parts the name, which goes up to the first white space, from the rest. -/
def ofText (cs : List Char) : Tag :=
  ⟨cs.takeWhile (!isSpace ·), cs.dropWhile (!isSpace ·)⟩

/-- A place in the text of attributes. -/
inductive Place
  /-- Between attributes. -/
  | between
  /-- In the name of one, whose characters are given last first. -/
  | inName (read : List Char)
  /-- After its name. -/
  | afterName (name : List Char)
  /-- After the equals sign. -/
  | beforeValue (name : List Char)
  /-- In its value, whose characters are given last first. -/
  | inValue (name : List Char) (quote : Char) (read : List Char)

/-- Reads attributes from some place on. -/
def attributesFrom? : Place → List Char → Option (List (List Char × List Char))
  | .between, [] => some []
  | _, [] => none
  | .between, c :: cs =>
    if isSpace c then attributesFrom? .between cs else attributesFrom? (.inName [c]) cs
  | .inName read, c :: cs =>
    if c = '=' then attributesFrom? (.beforeValue read.reverse) cs
    else if isSpace c then attributesFrom? (.afterName read.reverse) cs
    else attributesFrom? (.inName (c :: read)) cs
  | .afterName name, c :: cs =>
    if isSpace c then attributesFrom? (.afterName name) cs
    else if c = '=' then attributesFrom? (.beforeValue name) cs
    else none
  | .beforeValue name, c :: cs =>
    if isSpace c then attributesFrom? (.beforeValue name) cs
    else if c = '"' ∨ c = '\'' then attributesFrom? (.inValue name c []) cs
    else none
  | .inValue name quote read, c :: cs =>
    if c = quote then (attributesFrom? .between cs).map ((name, read.reverse) :: ·)
    else attributesFrom? (.inValue name quote (c :: read)) cs

/-- The attributes with their values as written.  A name may stand only once. -/
def attributes? (t : Tag) : Option (List (List Char × List Char)) :=
  (attributesFrom? .between t.rest).bind fun as =>
    if (as.map (·.1)).Nodup then some as else none

/-- The value of an attribute in a list of them: `some none` when it is not there, `none` when
it cannot be read. -/
def valueIn? (attributes : List (List Char × List Char)) (name : String) :
    Option (Option (List Char)) :=
  match attributes.find? (·.1 == name.toList) with
  | none => some none
  | some (_, written) => (unescape? written).map some

end Tag

end Markup

end QueryEditor
