import QueryEditor.Guid
import QueryEditor.Text.Numeral

/-!
# Escapes in attribute values

Markup characters and quotes are written as references in the value of an attribute
(`Markup.escape`).  `Markup.unescape?` also reads references to characters by number; any other
ampersand is an error.
-/

namespace QueryEditor

namespace Markup

/-- How a character is written in the value of an attribute. -/
def escapeChar : Char → List Char
  | '<' => "&lt;".toList
  | '>' => "&gt;".toList
  | '&' => "&amp;".toList
  | '\'' => "&apos;".toList
  | '"' => "&quot;".toList
  | c => [c]

/-- Writes the value of an attribute. -/
def escape (cs : List Char) : List Char := cs.flatMap escapeChar

/-- The character with this number; there is none with the number 0. -/
def charOfNumber? (n : Nat) : Option Char :=
  if n ≠ 0 ∧ n.isValidChar then some (Char.ofNat n) else none

/-- The character that a reference names. -/
def reference? : List Char → Option Char
  | '#' :: 'x' :: cs =>
    if cs.length ≤ 6 then
      (cs.mapM Guid.hexDigit?).bind fun ds => charOfNumber? (Guid.ofHexDigits ds)
    else none
  | '#' :: cs =>
    if cs.length ≤ 7 then (Numeral.continueFrom? 0 cs).bind charOfNumber? else none
  | cs =>
    if cs = "lt".toList then some '<'
    else if cs = "gt".toList then some '>'
    else if cs = "amp".toList then some '&'
    else if cs = "apos".toList then some '\''
    else if cs = "quot".toList then some '"'
    else none

/-- Reads what is left of a value; `name` is what was read of a reference, last character
first. -/
def unescapeFrom? : Option (List Char) → List Char → Option (List Char)
  | none, [] => some []
  | some _, [] => none
  | none, c :: cs =>
    if c = '&' then unescapeFrom? (some []) cs else (unescapeFrom? none cs).map (c :: ·)
  | some name, c :: cs =>
    if c = ';' then
      (reference? name.reverse).bind fun d => (unescapeFrom? none cs).map (d :: ·)
    else if c = '&' then none
    else unescapeFrom? (some (c :: name)) cs

/-- Reads the value of an attribute. -/
def unescape? (cs : List Char) : Option (List Char) := unescapeFrom? none cs

end Markup

end QueryEditor
