import QueryEditor.Json.Printer

/-!
# What a run of the program leaves behind

An `Outcome` is the exit code and the text on both output channels.
-/

namespace QueryEditor

namespace Console

/-- How results are printed. -/
inductive Format
  | text
  | json
  deriving DecidableEq, Repr

/-- Options of every command. -/
structure Options where
  format : Format := .text
  /-- Whether to print only what was asked for. -/
  isQuiet : Bool := false
  /-- The settings file. -/
  config : Option String := none
  /-- The metadata snapshot. -/
  catalog : Option String := none
  deriving DecidableEq

/-- What a run leaves behind.  On the error channel this is what a command prints there: the report
of an error or of a refused check, and the summary of a layout.  The program also logs warnings on
that channel, of an entity without metadata ("no metadata for schema") and of a visible cell without
an attribute ("skipping visible layout cell"); these lines are left out, and nothing else in a run
depends on them. -/
structure Outcome where
  exitCode : Nat := 0
  stdout : String := ""
  stderr : String := ""
  deriving DecidableEq

/-- Ends every line. -/
def unlines (ls : List String) : String := String.join (ls.map (· ++ "\n"))

/-- Writes a quotation mark after a backslash. -/
def escapeQuotes (s : String) : String :=
  String.ofList (s.toList.flatMap fun c => if c = '"' then ['\\', '"'] else [c])

/-- The line that reports an error. -/
def errorLine (format : Format) (message : String) : String :=
  match format with
  | .text => message ++ "\n"
  | .json => "\x7b\"error\": \"" ++ escapeQuotes message ++ "\"\x7d\n"

namespace Outcome

/-- Reports an error, unless the run is quiet, and ends with exit code 1. -/
def failure (o : Options) (message : String) : Outcome where
  exitCode := 1
  stderr := if o.isQuiet then "" else errorLine o.format message

/-- Prints a value. -/
def printJson (v : Json) : Outcome := { stdout := unlines [v.pretty] }

end Outcome

end Console

end QueryEditor
