import QueryEditor.Markup.Escape

/-!
# Writing markup

An `Element` is written with one tag a line, its children indented by two spaces.
-/

namespace QueryEditor

namespace Markup

/-- An element with named values. -/
inductive Element
  /-- An element written as one empty tag. -/
  | empty (name : String) (attributes : List (String × String))
  /-- An element written as a start tag, its children and a closing tag. -/
  | parent (name : String) (attributes : List (String × String)) (children : List Element)

namespace Element

/-- Writes one attribute. -/
def attributeText (a : String × String) : List Char :=
  ' ' :: a.1.toList ++ "=\"".toList ++ escape a.2.toList ++ ['"']

/-- Writes the name and the attributes. -/
def tagText (name : String) (attributes : List (String × String)) : List Char :=
  name.toList ++ attributes.flatMap attributeText

/-- Indents a line. -/
def indented (level : Nat) (line : List Char) : List Char :=
  List.replicate (2 * level) ' ' ++ line

mutual

/-- The lines of an element. -/
def lines (level : Nat) : Element → List (List Char)
  | empty name attributes => [indented level ('<' :: tagText name attributes ++ ['/', '>'])]
  | parent name attributes children =>
    indented level ('<' :: tagText name attributes ++ ['>']) ::
      (linesOfAll (level + 1) children ++
        [indented level ('<' :: '/' :: name.toList ++ ['>'])])

/-- The lines of several elements. -/
def linesOfAll (level : Nat) : List Element → List (List Char)
  | [] => []
  | e :: es => lines level e ++ linesOfAll level es

end

/-- Writes an element, without a line end after it. -/
def render (e : Element) : String := String.ofList (['\n'].intercalate (lines 0 e))

end Element

end Markup

end QueryEditor
