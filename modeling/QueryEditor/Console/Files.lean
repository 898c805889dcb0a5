/-!
# Files that a run reads

`Files` answers the text of a file or why it cannot be read.  `Files.ofList` answers from a
`FileTree`, where a path is followed name by name.
-/

namespace QueryEditor

namespace Console

/-- Why a file cannot be read. -/
inductive FileError
  | notFound
  | isDirectory
  | notDirectory
  /-- A name on the path, or the path as a whole, is too long. -/
  | nameTooLong
  /-- The file holds no text. -/
  | notText
  /-- Anything else that the system reports. -/
  | other (report : String)
  deriving DecidableEq

/-- What to tell the user. -/
def FileError.message : FileError → String
  | notFound => "No such file or directory (os error 2)"
  | isDirectory => "Is a directory (os error 21)"
  | notDirectory => "Not a directory (os error 20)"
  | nameTooLong => "File name too long (os error 36)"
  | notText => "stream did not contain valid UTF-8"
  | other report => report

/-- Answers the text at a path. -/
abbrev Files := String → Except FileError String

/-- Whether there is something at a path. -/
def Files.has (files : Files) (path : String) : Bool :=
  match files path with
  | .error .notFound => false
  | _ => true

/-- What to tell the user when a file cannot be read. -/
def unreadable (path : String) (e : FileError) : String :=
  s!"could not read '{path}': {e.message}"

/-! ### Trees of files -/

/-- A place in a tree of files: the names on the way to it from the root. -/
abbrev Place := List (List Char)

/-- A tree of files. -/
structure FileTree where
  /-- The place and the text of every file. -/
  files : List (Place × String)
  /-- The places that are directories, those above a file apart. -/
  directories : List Place

namespace FileTree

/-- Whether there is a directory at a place. -/
def isDirectory (t : FileTree) (place : Place) : Bool :=
  t.directories.any (place.isPrefixOf ·) ||
    t.files.any fun file => place.isPrefixOf file.1 && place != file.1

/-- The text of the file at a place. -/
def text? (t : FileTree) (place : Place) : Option String := t.files.lookup place

/-- The most bytes of a name. -/
def maxNameSize : Nat := 255

/-- The most bytes of a path. -/
def maxPathSize : Nat := 4095

/-- Follows one name of a path.  It has to stand in a directory, even when it is empty or a
point, which stay there; two points lead to the directory above. -/
def follow (t : FileTree) (place : Place) (name : List Char) : Except FileError Place :=
  if !t.isDirectory place then .error .notDirectory
  else if name = [] ∨ name = ['.'] then .ok place
  else if name = ['.', '.'] then .ok place.dropLast
  else if maxNameSize < (String.ofList name).utf8ByteSize then .error .nameTooLong
  else
    let next := place ++ [name]
    if t.isDirectory next || (t.text? next).isSome then .ok next else .error .notFound

/-- Follows a path from a place, or from the root if a slash leads it. -/
def find (t : FileTree) (start : Place) (path : String) : Except FileError Place :=
  if path = "" then .error .notFound
  else if maxPathSize < path.utf8ByteSize then .error .nameTooLong
  else
    (path.toList.splitOn '/').foldlM t.follow (if path.toList.head? = some '/' then [] else start)

/-- Reads the file at a path. -/
def read (t : FileTree) (start : Place) (path : String) : Except FileError String := do
  match t.text? (← t.find start path) with
  | some text => .ok text
  | none => .error .isDirectory

/-- Where a run starts: a directory without a name, so that no path leads down into it. -/
def workingDirectory : Place := ["tmp".toList, []]

/-- The directories at the root of any system. -/
def systemDirectories : List Place :=
  ["bin", "boot", "dev", "etc", "home", "lib", "media", "mnt", "opt", "proc", "run", "sbin", "srv",
    "sys", "tmp", "usr", "var"].map fun name => [name.toList]

/-- The file that is always empty. -/
def nullDevice : Place := ["dev".toList, "null".toList]

/-- The tree whose working directory holds files with these paths and texts. -/
def ofList (entries : List (String × String)) : FileTree where
  files := (nullDevice, "") :: entries.map fun (path, text) =>
    (workingDirectory ++ (path.toList.splitOn '/').filter (fun name => name ≠ [] ∧ name ≠ ['.']),
      text)
  directories := workingDirectory :: systemDirectories

end FileTree

/-- The files of a list of paths and texts, in a working directory that holds nothing else. -/
def Files.ofList (entries : List (String × String)) : Files :=
  (FileTree.ofList entries).read FileTree.workingDirectory

end Console

end QueryEditor
