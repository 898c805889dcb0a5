import QueryEditor.Console.Run

/-!
# The program

Reads the files that the command line names and carries it out.
-/

namespace QueryEditor

namespace Console

/-- The number of a system error, which some calls report negated. -/
def errorNumber (code : UInt32) : UInt32 := min code (-code)

/-- Tells why the system could not read a file. -/
def FileError.ofSystem (e : IO.Error) : FileError :=
  match e with
  | .noFileOrDirectory .. => .notFound
  | .inappropriateType _ code _ => if errorNumber code = 20 then .notDirectory else .isDirectory
  | .invalidArgument _ code _ =>
    if errorNumber code = 36 then .nameTooLong else .other (toString e)
  | _ => .other (toString e)

/-- Reads a file. -/
def readPath (path : String) : IO (Except FileError String) := do
  try
    let bytes ← IO.FS.readBinFile path
    return match String.fromUTF8? bytes with
      | some text => .ok text
      | none => .error .notText
  catch e => return .error (.ofSystem e)

/-- Reads the files at some paths. -/
def readPaths (paths : List String) : IO Files := do
  let texts ← paths.mapM fun path => do return (path, ← readPath path)
  return fun path => (texts.lookup path).getD (.error .notFound)

/-- Carries out the command line and answers the exit code. -/
def execute (args : List String) : IO UInt32 := do
  let paths := match Request.ofArguments args with
    | .ok request => request.paths
    | .error _ => []
  let outcome := run (← readPaths paths) args
  (← IO.getStdout).putStr outcome.stdout
  (← IO.getStderr).putStr outcome.stderr
  return outcome.exitCode.toUInt32

end Console

end QueryEditor

/-- Runs the program. -/
def main (args : List String) : IO UInt32 := QueryEditor.Console.execute args
