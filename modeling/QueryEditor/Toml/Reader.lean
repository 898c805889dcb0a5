import QueryEditor.Toml.Scalar
import QueryEditor.Toml.Table

/-!
# Reading TOML

`Toml.read?` reads a document: lines that define entries or open the table that the entries
after them belong to.  Lists and tables on one line may not stand in each other more than
`maxDepth` deep, and a key may not have more parts than that.
-/

namespace QueryEditor

namespace Toml

/-! ### Comments and line ends -/

/-- Drops a comment, if there is one.  A carriage return may stand only before the line end. -/
def skipComment? : List Char → Option (List Char)
  | '#' :: cs =>
    let line := cs.takeWhile (· != '\n')
    let rest := cs.dropWhile (· != '\n')
    let comment := if line.getLast? = some '\r' ∧ rest ≠ [] then line.dropLast else line
    if comment.any isControl then none else some rest
  | cs => some cs

/-- Drops the rest of a line that says nothing more. -/
def skipLineEnd? (cs : List Char) : Option (List Char) :=
  (skipComment? (skipSpace cs)).bind fun
    | [] => some []
    | '\n' :: cs => some cs
    | '\r' :: '\n' :: cs => some cs
    | _ => none

/-- Drops white space, comments and line ends. -/
def skipLines? : Nat → List Char → Option (List Char)
  | 0, cs => some cs
  | fuel + 1, cs => match skipSpace cs with
    | '\n' :: cs => skipLines? fuel cs
    | '\r' :: '\n' :: cs => skipLines? fuel cs
    | '#' :: cs => (skipComment? ('#' :: cs)).bind (skipLines? fuel)
    | cs => some cs

/-! ### Keys -/

/-- The characters of a key without quotes. -/
def isKeyChar (c : Char) : Bool := c.isAlphanum || c == '_' || c == '-'

/-- Reads a key without points. -/
def simpleKey? : List Char → Option (String × List Char)
  | '"' :: cs => (basic? cs).map fun (key, rest) => (String.ofList key, rest)
  | '\'' :: cs => (literal? cs).map fun (key, rest) => (String.ofList key, rest)
  | cs =>
    let key := cs.takeWhile isKeyChar
    if key.isEmpty then none else some (String.ofList key, cs.drop key.length)

/-- How deep tables and lists may go. -/
def maxDepth : Nat := 79

/-- Reads a key, which may have points, of at most so many parts. -/
def keyWithin? : Nat → List Char → Option (List String × List Char)
  | 0, _ => none
  | room + 1, cs => (simpleKey? (skipSpace cs)).bind fun (first, rest) =>
    match skipSpace rest with
    | '.' :: rest => (keyWithin? room rest).map fun (more, rest) => (first :: more, rest)
    | rest => some ([first], rest)

/-- Reads a key, which may have points. -/
def key? (cs : List Char) : Option (List String × List Char) := keyWithin? maxDepth cs

/-! ### Values -/

mutual

/-- Reads a value; `room` is how many lists and tables may stand in each other. -/
def value? (room : Nat) : Nat → List Char → Option (Toml × List Char)
  | 0, _ => none
  | fuel + 1, cs => match cs, room with
    | '"' :: _, _ => (string? cs).map fun (s, rest) => (.string s, rest)
    | '\'' :: _, _ => (string? cs).map fun (s, rest) => (.string s, rest)
    | '[' :: _, 0 => none
    | '[' :: rest, room + 1 =>
      (items? room fuel rest).map fun (items, rest) => (.array items, rest)
    | '\x7b' :: _, 0 => none
    | '\x7b' :: rest, room + 1 => match skipSpace rest with
      | '\x7d' :: rest => some (.table [], rest)
      | rest => (pairs? room fuel rest).bind fun (pairs, rest) =>
        (ofPairs? pairs).map fun table => (table, rest)
    | _, _ => scalar? cs

/-- Reads the items of a list and its closing bracket. -/
def items? (room : Nat) : Nat → List Char → Option (List Toml × List Char)
  | 0, _ => none
  | fuel + 1, cs => (skipLines? fuel cs).bind fun
    | ']' :: rest => some ([], rest)
    | cs => (value? room fuel cs).bind fun (v, rest) => (skipLines? fuel rest).bind fun
      | ',' :: rest => (items? room fuel rest).map fun (vs, rest) => (v :: vs, rest)
      | ']' :: rest => some ([v], rest)
      | _ => none

/-- Reads the entries of a table on one line and its closing brace. -/
def pairs? (room : Nat) : Nat → List Char → Option (List (List String × Toml) × List Char)
  | 0, _ => none
  | fuel + 1, cs => (key? cs).bind fun
    | (key, '=' :: rest) => (value? room fuel (skipSpace rest)).bind fun (v, rest) =>
      match skipSpace rest with
      | ',' :: rest => (pairs? room fuel rest).map fun (more, rest) => ((key, v) :: more, rest)
      | '\x7d' :: rest => some ([(key, v)], rest)
      | _ => none
    | _ => none

end

/-! ### Documents -/

/-- A statement of a document. -/
inductive Statement
  /-- Opens a table. -/
  | table (path : List String)
  /-- Adds a table to a list. -/
  | element (path : List String)
  /-- Defines an entry of the open table. -/
  | entry (key : List String) (v : Toml)

/-- Reads the statement on a line that holds one. -/
def statement? (fuel : Nat) : List Char → Option (Statement × List Char)
  | '[' :: '[' :: cs => (key? cs).bind fun
    | (path, ']' :: ']' :: rest) => some (.element path, rest)
    | _ => none
  | '[' :: cs => (key? cs).bind fun
    | (path, ']' :: rest) => some (.table path, rest)
    | _ => none
  | cs => (key? cs).bind fun
    | (key, '=' :: rest) =>
      (value? maxDepth fuel (skipSpace rest)).map fun (v, rest) => (.entry key v, rest)
    | _ => none

/-- Reads the statements of a document. -/
def statements? : Nat → List Char → Option (List Statement)
  | 0, _ => none
  | fuel + 1, cs => (skipLines? fuel cs).bind fun
    | [] => some []
    | cs => (statement? fuel cs).bind fun (s, rest) =>
      (skipLineEnd? rest).bind fun rest => (statements? fuel rest).map (s :: ·)

/-- A document that is being read: its entries and the path of the open table. -/
structure Draft where
  entries : Entries := []
  path : List String := []

/-- Carries out a statement. -/
def Draft.apply? (d : Draft) : Statement → Option Draft
  | .table path => (d.entries.openTable? path).map fun entries => ⟨entries, path⟩
  | .element path => (d.entries.openElement? path).map fun entries => ⟨entries, path⟩
  | .entry key v =>
    (Entries.changeAt false (fun isDotted inner => inner.define? key v isDotted) d.path false
      d.entries).map fun entries => { d with entries }

/-- Drops a byte order mark at the start. -/
def dropByteOrderMark : List Char → List Char
  | '\ufeff' :: cs => cs
  | cs => cs

/-- Reads a document.  Every step takes a character or goes one level into what it starts, so
twice the length of the text is enough of them. -/
def read? (text : String) : Option (List (String × Toml)) :=
  let cs := dropByteOrderMark text.toList
  ((statements? (2 * cs.length + 2) cs).bind fun statements =>
    statements.foldlM Draft.apply? {}).map fun d => closeEntries d.entries

end Toml

end QueryEditor
