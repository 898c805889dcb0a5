import QueryEditor.Console.Check
import QueryEditor.Console.Layout
import QueryEditor.Console.Mode
import QueryEditor.Console.Operators

/-!
# Running a command line

`Console.run` is the whole program as a function of its arguments and of the files it may read.
-/

namespace QueryEditor

namespace Console

/-- The line that names the program and its version. -/
def versionLine : String := "qtree 0.1.0"

/-- A short reminder of the commands. -/
def helpLines : List String :=
  [ "Query condition checking and result layout tools", "",
    "Usage: qtree [OPTIONS] <COMMAND>", "",
    "Commands: check, operators, mode, layout",
    "Options: --output <text|json>, --quiet, --config <FILE>, --catalog <FILE>" ]

/-- Carries out a command. -/
def Command.carryOut (files : Files) (s : Session) : Command → Outcome
  | .check c strict save => checkCondition s c strict save
  | .operators about => listOperators s about
  | .mode c target resolve => showMode s c target resolve
  | .layout entity file columns widths => writeLayout files s entity file columns widths

/-- Carries out a request. -/
def Request.carryOut (files : Files) : Request → Outcome
  | .notice .version => { stdout := unlines [versionLine] }
  | .notice .help => { stdout := unlines helpLines }
  | .perform options command => match Session.load files options with
    | .ok session => command.carryOut files session
    | .error message => .failure options s!"error: {message}"

/-- Runs a command line.  One that cannot be read ends with exit code 2. -/
def run (files : Files) (args : List String) : Outcome :=
  match Request.ofArguments args with
  | .ok request => request.carryOut files
  | .error e => { exitCode := 2, stderr := unlines [s!"error: {e.message}"] }

/-- The files that a request may read. -/
def Request.paths : Request → List String
  | .notice _ => []
  | .perform options command =>
    [options.config.getD Config.defaultPath] ++ options.catalog.toList ++
      match command with
      | .layout _ file _ _ => file.toList
      | _ => []

end Console

end QueryEditor
