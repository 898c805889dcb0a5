import QueryEditor.Toml.Basic

/-!
# Building tables

The statements of a document build its tables step by step.  A table that was opened by a
header, or by keys with points in them, may take more entries of the same sort; nothing may be
defined twice.
-/

namespace QueryEditor

namespace Toml

/-- What a key stands for while a document is read. -/
inductive Item
  /-- A value, which takes no more entries. -/
  | value (v : Toml)
  /-- A table: `isOpen` until a header defines it, `isDotted` when a key with points made it. -/
  | table (isOpen isDotted : Bool) (entries : List (String × Item))
  /-- A list of tables, last one first. -/
  | tables (all : List (List (String × Item)))

/-- The entries of a table that is being built. -/
abbrev Entries := List (String × Item)

namespace Entries

/-- Puts another item in the place of a key. -/
def replace (entries : Entries) (key : String) (item : Item) : Entries :=
  entries.map fun e => if e.1 == key then (key, item) else e

/-- Changes the table at the end of a path; tables on the way are made if need be.  A path of a
key with points, where `dotted` holds, may not go through a table that a header defined.
`change` is given the entries and whether a key with points made the table. -/
def changeAt (dotted : Bool) (change : Bool → Entries → Option Entries) :
    List String → Bool → Entries → Option Entries
  | [], isDotted, entries => change isDotted entries
  | key :: path, _, entries => match entries.lookup key with
    | none => (changeAt dotted change path dotted []).map fun inner =>
      entries ++ [(key, .table true dotted inner)]
    | some (.table isOpen isDotted inner) =>
      if dotted && !isOpen then none
      else (changeAt dotted change path isDotted inner).map fun inner =>
        entries.replace key (.table isOpen isDotted inner)
    | some (.tables (last :: others)) =>
      (changeAt dotted change path false last).map fun last =>
        entries.replace key (.tables (last :: others))
    | some _ => none

/-- Adds an entry under a new key. -/
def insert? (entries : Entries) (key : String) (v : Toml) : Option Entries :=
  if (entries.lookup key).isSome then none else some (entries ++ [(key, .value v)])

/-- Adds an entry under a key, which may have points, to a table. -/
def define? (key : List String) (v : Toml) (isDotted : Bool) (entries : Entries) :
    Option Entries :=
  key.getLast?.bind fun last =>
    changeAt true
      (fun reachedDotted inner =>
        if reachedDotted == key.dropLast.isEmpty then none else insert? inner last v)
      key.dropLast isDotted entries

/-- Opens the table of a header, which may have been made on the way to another one. -/
def openTable? (path : List String) (entries : Entries) : Option Entries :=
  path.getLast?.bind fun last =>
    changeAt false
      (fun _ inner => match inner.lookup last with
        | none => some (inner ++ [(last, .table false false [])])
        | some (.table true false own) => some (inner.replace last (.table false false own))
        | some _ => none)
      path.dropLast false entries

/-- Adds a table to the list that a header names. -/
def openElement? (path : List String) (entries : Entries) : Option Entries :=
  path.getLast?.bind fun last =>
    changeAt false
      (fun _ inner => match inner.lookup last with
        | none => some (inner ++ [(last, .tables [[]])])
        | some (.tables all) => some (inner.replace last (.tables ([] :: all)))
        | some _ => none)
      path.dropLast false entries

end Entries

mutual

/-- The value that an item has become. -/
def Item.close : Item → Toml
  | .value v => v
  | .table _ _ entries => .table (closeEntries entries)
  | .tables all => .array (closeTables all).reverse

/-- The entries that a table has in the end. -/
def closeEntries : List (String × Item) → List (String × Toml)
  | [] => []
  | (key, item) :: rest => (key, item.close) :: closeEntries rest

/-- The tables that a list has in the end. -/
def closeTables : List (List (String × Item)) → List Toml
  | [] => []
  | entries :: rest => .table (closeEntries entries) :: closeTables rest

end

/-- The table of a list of keys and values. -/
def ofPairs? (pairs : List (List String × Toml)) : Option Toml :=
  (pairs.foldlM (fun (entries : Entries) (key, v) => entries.define? key v false) []).map
    fun entries => .table (closeEntries entries)

end Toml

end QueryEditor
