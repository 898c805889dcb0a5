import QueryEditor.Console.Site
import QueryEditor.Layout.Grid

/-!
# The command that brings a layout up to date
-/

namespace QueryEditor

namespace Console

/-- Why a list of widths cannot be read. -/
inductive WidthError
  /-- An entry has no equals sign. -/
  | noWidth (entry : String)
  /-- The width of an entry is no number. -/
  | invalidWidth (name width : String)
  deriving DecidableEq

/-- What to tell the user. -/
def WidthError.message : WidthError → String
  | noWidth entry => s!"error: expected name=width, got '{entry}'"
  | invalidWidth name width => s!"error: invalid width for '{name}': '{width}'"

/-- Reads an entry: a name, an equals sign and a width. -/
def readWidth (entry : List Char) : Except WidthError (String × UInt32) :=
  match Text.cut '=' entry with
  | none => .error (.noWidth (String.ofList entry))
  | some (name, width) =>
    let name := String.ofList (Text.trimmed name)
    match Numeral.uint32? (Text.trimmed width) with
    | some n => .ok (name, n)
    | none => .error (.invalidWidth name (String.ofList width))

/-- Reads entries with commas between them; blank ones are dropped. -/
def readWidths (list : String) : Except WidthError (List (String × UInt32)) :=
  (((list.toList.splitOn ',').map Text.trimmed).filter (· ≠ [])).mapM readWidth

/-- The layout at a path as text; without a path it is empty. -/
def layoutText (files : Files) (path : Option String) : Except String String :=
  match path with
  | none => .ok ""
  | some path => match files path with
    | .ok text => .ok text
    | .error e => .error s!"error: {unreadable path e}"

/-- Says that a layout cannot be read or written. -/
def layoutFailure (e : LayoutError) : String := s!"error: {e.message}"

/-- Gives a layout the widths of the command line, if there are any. -/
def applyWidths (l : Layout) (columns : List Column) (widths : Option String) :
    Except String Layout :=
  match widths with
  | none => .ok l
  | some list => match readWidths list with
    | .ok widths => .ok (l.reconcileWidths widths columns)
    | .error e => .error e.message

/-- Reads a layout and brings it up to date; answers it with its document. -/
def updateLayout (files : Files) (s : Session) (entity : String) (path : Option String)
    (names : List String) (widths : Option String) : Except String (Layout × String) := do
  let text ← layoutText files path
  let columns := names.map Column.ofResultName
  let persisted ← (Layout.read text s.catalog entity columns).mapError layoutFailure
  let layout ← applyWidths persisted columns widths
  let xml ← layout.toXml.mapError layoutFailure
  .ok (layout, xml)

/-- Brings a layout up to date and prints it. -/
def writeLayout (files : Files) (s : Session) (entity : String) (path : Option String)
    (names : List String) (widths : Option String) : Outcome :=
  match updateLayout files s entity path names widths with
  | .error message => .failure s.options message
  | .ok (layout, xml) => match s.options.format with
    | .json => .printJson (.object
        [ .always "layout" layout.toJson,
          .always "summary" (.text layout.summary),
          .always "xml" (.text xml) ])
    | .text =>
      { stdout := unlines [xml]
        stderr := if s.options.isQuiet then "" else unlines [layout.summary] }

end Console

end QueryEditor
