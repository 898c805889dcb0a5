import QueryEditor.Text.Blank

/-!
# Globally unique identifiers

A `Guid` is a 128-bit number.  It is written as 32 hexadecimal digits, in groups of 8, 4, 4, 4
and 12 joined by hyphens, and such groups may stand in braces or after `urn:uuid:`.
`Guid.read?` takes every written form, `Guid.literal?` those of a condition's value: all but
the last, with white space around them.  The size of such a value tells which form to expect.
-/

namespace QueryEditor

/-- A 128-bit identifier. -/
structure Guid where
  /-- The identifier as a number. -/
  number : BitVec 128
  deriving DecidableEq

namespace Guid

/-- The identifier with every digit zero, which stands for no record. -/
def nil : Guid := ⟨0⟩

/-- The value of a hexadecimal digit in either case. -/
def hexDigit? (c : Char) : Option Nat :=
  if '0' ≤ c ∧ c ≤ '9' then some (c.toNat - '0'.toNat)
  else if 'a' ≤ c ∧ c ≤ 'f' then some (c.toNat - 'a'.toNat + 10)
  else if 'A' ≤ c ∧ c ≤ 'F' then some (c.toNat - 'A'.toNat + 10)
  else none

/-- The number that a list of digit values stands for, most significant first. -/
def ofHexDigits (ds : List Nat) : Nat := ds.foldl (fun n d => 16 * n + d) 0

/-- Reads 32 hexadecimal digits. -/
def ofDigits? (cs : List Char) : Option Guid :=
  if cs.length = 32 then (cs.mapM hexDigit?).map fun ds => ⟨BitVec.ofNat 128 (ofHexDigits ds)⟩
  else none

/-- The sizes of the groups between hyphens. -/
def groupSizes : List Nat := [8, 4, 4, 4, 12]

/-- Reads hyphenated groups. -/
def ofGroups? (cs : List Char) : Option Guid :=
  let groups := cs.splitOn '-'
  if groups.map List.length = groupSizes then ofDigits? groups.flatten else none

/-- What stands inside braces. -/
def unbraced? : List Char → Option (List Char)
  | '\x7b' :: cs => if cs.getLast? = some '\x7d' then some cs.dropLast else none
  | _ => none

/-- Reads hyphenated groups in braces. -/
def ofBraced? (cs : List Char) : Option Guid := (unbraced? cs).bind ofGroups?

/-- What stands before hyphenated groups in a resource name. -/
def urnLead : List Char := "urn:uuid:".toList

/-- Reads hyphenated groups in a resource name, whose lead may be in letters of either case. -/
def ofUrn? (cs : List Char) : Option Guid :=
  if (cs.take urnLead.length).map Char.toLower = urnLead then
    ofGroups? (cs.drop urnLead.length)
  else none

/-- Reads digits, hyphenated groups, or groups in braces. -/
def ofPlain? (cs : List Char) : Option Guid :=
  (ofDigits? cs).or ((ofGroups? cs).or (ofBraced? cs))

/-- Reads any written form. -/
def read? (s : String) : Option Guid := (ofPlain? s.toList).or (ofUrn? s.toList)

/-- Reads the value of a condition as an identifier, in the form that its size in bytes stands for;
braces are taken off before what is in them is read. -/
def literal? (s : String) : Option Guid :=
  let text := Text.trim s
  if text.utf8ByteSize = 32 ∨ text.utf8ByteSize = 36 then read? text
  else if text.utf8ByteSize = 38 then
    (unbraced? text.toList).bind fun inner => read? (String.ofList inner)
  else none

/-- The lower-case digit of a value below 16. -/
def hexChar (d : Nat) : Char := Char.ofNat (if d < 10 then d + '0'.toNat else d - 10 + 'a'.toNat)

/-- The `count` lowest hexadecimal digits of a number, most significant first. -/
def hexDigits : Nat → Nat → List Char
  | 0, _ => []
  | count + 1, n => hexDigits count (n / 16) ++ [hexChar (n % 16)]

/-- Cuts a list into groups of the given sizes. -/
def grouped : List Nat → List Char → List (List Char)
  | [], _ => []
  | n :: ns, cs => cs.take n :: grouped ns (cs.drop n)

/-- Writes the identifier as lower-case hyphenated groups. -/
def render (g : Guid) : String :=
  String.ofList (['-'].intercalate (grouped groupSizes (hexDigits 32 g.number.toNat)))

instance : ToString Guid := ⟨render⟩

end Guid

end QueryEditor
