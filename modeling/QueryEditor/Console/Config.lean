import QueryEditor.Console.Files
import QueryEditor.Server
import QueryEditor.Toml.Reader

/-!
# The settings file

The table `engine` of the settings file names the version of the server and what the user
prefers.  Whether columns can be compared may be stated outright; that overrides what the
version implies.
-/

namespace QueryEditor

namespace Console

/-- What the settings file says. -/
structure Config where
  serverVersion : Option String := none
  columnComparison : Option Bool := none
  useLookup : Bool := false
  deriving DecidableEq

namespace Config

/-- The file that is read when no other is named, if it is there. -/
def defaultPath : String := "qtree.toml"

/-- Reads a text. -/
def text? : Toml → Option String
  | .string s => some s
  | _ => none

/-- Reads a truth value. -/
def bool? : Toml → Option Bool
  | .boolean b => some b
  | _ => none

/-- Reads the `engine` table, or the list of its entries in the order of declaration, where only
the last may be missing.  A moment counts as a table without these entries. -/
def ofEngine? : Toml → Option Config
  | .table entries => do
    let serverVersion ← (entries.lookup "server_version").mapM text?
    let columnComparison ← (entries.lookup "column_comparison_supported").mapM bool?
    let useLookup ← (entries.lookup "use_lookup").mapM bool?
    some { serverVersion, columnComparison, useLookup := useLookup.getD false }
  | .array (version :: comparison :: rest) => do
    let serverVersion ← text? version
    let columnComparison ← bool? comparison
    let useLookup ← rest.head?.mapM bool?
    some
      { serverVersion := some serverVersion, columnComparison := some columnComparison,
        useLookup := useLookup.getD false }
  | .moment => some {}
  | _ => none

/-- Reads a settings file. -/
def ofText? (text : String) : Option Config := do
  let entries ← Toml.read? text
  match entries.lookup "engine" with
  | none => some {}
  | some engine => ofEngine? engine

/-- Reads the settings file at a path. -/
def readAt (files : Files) (path : String) : Except String Config :=
  match files path with
  | .error e => .error (unreadable path e)
  | .ok text => match ofText? text with
    | some config => .ok config
    | none => .error s!"could not parse '{path}': not a settings file"

/-- Reads the named settings file, or the default one if it is there. -/
def load (files : Files) (path : Option String) : Except String Config :=
  match path with
  | some path => readAt files path
  | none => if files.has defaultPath then readAt files defaultPath else .ok {}

/-- The settings that the file implies. -/
def settings (c : Config) : Except String Settings :=
  let implied : Except String Settings := match c.serverVersion with
    | none => .ok { useLookup := c.useLookup }
    | some text => match ServerVersion.read? text with
      | some v => .ok (Settings.forServer v c.useLookup)
      | none => .error (ServerVersion.invalidMessage text)
  implied.map fun s => { s with columnComparison := c.columnComparison.getD s.columnComparison }

end Config

end Console

end QueryEditor
