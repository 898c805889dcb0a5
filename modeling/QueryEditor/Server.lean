import QueryEditor.Json.Record
import QueryEditor.Text.Blank

/-!
# The server and the editor's settings

What the connected server can do follows from its version.  `ServerVersion.read?` reads up to
four numbers with points between them, and `Settings.forServer` derives the editor's settings.
-/

namespace QueryEditor

/-- The version of a server. -/
structure ServerVersion where
  major : UInt32
  minor : UInt32 := 0
  build : UInt32 := 0
  revision : UInt32 := 0
  deriving DecidableEq

namespace ServerVersion

/-- The version with these numbers; missing ones are zero. -/
def ofParts? : List UInt32 → Option ServerVersion
  | [a] => some ⟨a, 0, 0, 0⟩
  | [a, b] => some ⟨a, b, 0, 0⟩
  | [a, b, c] => some ⟨a, b, c, 0⟩
  | [a, b, c, d] => some ⟨a, b, c, d⟩
  | _ => none

/-- Reads a version. -/
def read? (text : String) : Option ServerVersion :=
  (((Text.trimmed text.toList).splitOn '.').mapM Numeral.uint32?).bind ofParts?

/-- The four numbers. -/
def parts (v : ServerVersion) : List UInt32 := [v.major, v.minor, v.build, v.revision]

/-- Writes all four numbers. -/
def render (v : ServerVersion) : String := ".".intercalate (v.parts.map Numeral.ofUInt32)

/-- The first number in which two versions differ decides which one is earlier. -/
instance : LE ServerVersion := ⟨fun v w => v.parts ≤ w.parts⟩

instance (v w : ServerVersion) : Decidable (v ≤ w) :=
  inferInstanceAs (Decidable (v.parts ≤ w.parts))

theorem le_trans {u v w : ServerVersion} (h : u ≤ v) (h' : v ≤ w) : u ≤ w :=
  List.le_trans h h'

/-- What to tell the user of a text that is no version. -/
def invalidMessage (text : String) : String :=
  s!"invalid server version '{text}': expected up to four dot-separated numbers"

/-- The first version that can compare columns. -/
def firstToCompareColumns : ServerVersion := ⟨9, 1, 0, 19562⟩

end ServerVersion

/-- The settings of the editor. -/
structure Settings where
  /-- Whether a condition may compare its attribute with another column. -/
  columnComparison : Bool := false
  /-- Whether the user picks identifiers through a search for records. -/
  useLookup : Bool := false
  deriving DecidableEq

namespace Settings

/-- The settings for a server. -/
def forServer (v : ServerVersion) (useLookup : Bool) : Settings where
  columnComparison := ServerVersion.firstToCompareColumns ≤ v
  useLookup

/-- The declared fields. -/
def fieldNames : List String := ["column_comparison_supported", "use_lookup"]

/-- Reads settings. -/
def ofJson? (j : Json) : Option Settings := do
  let r ← j.record? fieldNames
  let columnComparison ← r.default? "column_comparison_supported" false Json.bool?
  let useLookup ← r.default? "use_lookup" false Json.bool?
  some { columnComparison, useLookup }

/-- Writes settings. -/
def toJson (s : Settings) : Json :=
  .object
    [ .always "column_comparison_supported" (.bool s.columnComparison),
      .always "use_lookup" (.bool s.useLookup) ]

end Settings

end QueryEditor
