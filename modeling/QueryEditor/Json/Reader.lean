import QueryEditor.Guid
import QueryEditor.Json.Basic
import QueryEditor.Text.Numeral

/-!
# Reading JSON

`Json.read?` reads a strict JSON text: no byte order mark, comments, trailing commas, leading
zeros, raw control characters in strings or text after the value.
-/

namespace QueryEditor

namespace Json

/-- White space between the tokens of a JSON text. -/
def isSpace (c : Char) : Bool := c == ' ' || c == '\t' || c == '\n' || c == '\r'

/-- Drops white space at the start. -/
def skipSpace (cs : List Char) : List Char := cs.dropWhile isSpace

/-! ### Strings -/

/-- The first half of a surrogate pair. -/
def isHighSurrogate (n : Nat) : Bool := 0xD800 ≤ n && n < 0xDC00

/-- The second half of a surrogate pair. -/
def isLowSurrogate (n : Nat) : Bool := 0xDC00 ≤ n && n < 0xE000

/-- The character that a surrogate pair stands for. -/
def pairChar (high low : Nat) : Char :=
  Char.ofNat (0x10000 + 0x400 * (high - 0xD800) + (low - 0xDC00))

/-- The number that four hexadecimal digits write. -/
def codeUnit? (a b c d : Char) : Option Nat :=
  ([a, b, c, d].mapM Guid.hexDigit?).map Guid.ofHexDigits

/-- The character that a letter stands for after a backslash. -/
def escaped? : Char → Option Char
  | '"' => some '"'
  | '\\' => some '\\'
  | '/' => some '/'
  | 'b' => some '\x08'
  | 'f' => some '\x0c'
  | 'n' => some '\n'
  | 'r' => some '\r'
  | 't' => some '\t'
  | _ => none

/-- Puts a character in front of what was read. -/
def withChar (c : Char) (r : Option (List Char) × List Char) : Option (List Char) × List Char :=
  (r.1.map (c :: ·), r.2)

/-- Says that what was read stands for no text. -/
def withoutText (r : Option (List Char) × List Char) : Option (List Char) × List Char :=
  (none, r.2)

/-- Puts a character in front, unless half of a surrogate pair waits for its other half. -/
def withCharAfter (high : Option Nat) (c : Char) (r : Option (List Char) × List Char) :
    Option (List Char) × List Char :=
  if high.isSome then withoutText r else withChar c r

/-- Reads the characters of a string literal and its closing quote; `high` is the half of a
surrogate pair that the last escape named. -/
def stringBody? (high : Option Nat) : List Char → Option (Option (List Char) × List Char)
  | [] => none
  | '"' :: cs => some (if high.isSome then none else some [], cs)
  | '\\' :: 'u' :: a :: b :: c :: d :: cs =>
    (codeUnit? a b c d).bind fun n =>
      if isLowSurrogate n then
        match high with
        | some h => (stringBody? none cs).map (withChar (pairChar h n))
        | none => (stringBody? none cs).map withoutText
      else if isHighSurrogate n then
        if high.isSome then (stringBody? (some n) cs).map withoutText
        else stringBody? (some n) cs
      else (stringBody? none cs).map (withCharAfter high (Char.ofNat n))
  | '\\' :: e :: cs =>
    (escaped? e).bind fun c => (stringBody? none cs).map (withCharAfter high c)
  | c :: cs =>
    if c.toNat < 0x20 ∨ c = '\\' then none
    else (stringBody? none cs).map (withCharAfter high c)

/-- Reads a string literal after its opening quote. -/
def string? (cs : List Char) : Option (Option String × List Char) :=
  (stringBody? none cs).map fun (text, rest) => (text.map String.ofList, rest)

/-! ### Numbers -/

/-- Whether a character is a digit. -/
def isDigit (c : Char) : Bool := (Numeral.digit? c).isSome

/-- Drops one or more digits. -/
def skipDigits? (cs : List Char) : Option (List Char) :=
  if (cs.head?.map isDigit) = some true then some (cs.dropWhile isDigit) else none

/-- Drops the digits before the point: a zero, or digits that do not start with one. -/
def skipWhole? : List Char → Option (List Char)
  | '0' :: cs => if (cs.head?.map isDigit) = some true then none else some cs
  | cs => skipDigits? cs

/-- Drops a fraction, if there is one. -/
def skipFraction? : List Char → Option (List Char)
  | '.' :: cs => skipDigits? cs
  | cs => some cs

/-- Drops the sign of an exponent, if there is one. -/
def skipSign : List Char → List Char
  | '+' :: cs => cs
  | '-' :: cs => cs
  | cs => cs

/-- Drops an exponent, if there is one. -/
def skipExponent? : List Char → Option (List Char)
  | 'e' :: cs => skipDigits? (skipSign cs)
  | 'E' :: cs => skipDigits? (skipSign cs)
  | cs => some cs

/-- Drops a minus sign, if there is one. -/
def skipMinus : List Char → List Char
  | '-' :: cs => cs
  | cs => cs

/-- The value of a numeral: whole when nothing but digits stands in it. -/
def ofNumeral (numeral : List Char) : Json :=
  match Numeral.signed? numeral with
  | some n => if numeral = ['-', '0'] then .real "-0" else .int n
  | none => .real (String.ofList numeral)

/-- Reads a numeral. -/
def number? (cs : List Char) : Option (Json × List Char) := do
  let rest ← skipExponent? (← skipFraction? (← skipWhole? (skipMinus cs)))
  some (ofNumeral (cs.take (cs.length - rest.length)), rest)

/-! ### Values -/

mutual

/-- Reads a value. -/
def value? : Nat → List Char → Option (Json × List Char)
  | 0, _ => none
  | fuel + 1, cs => match skipSpace cs with
    | 'n' :: rest => ("ull".toList.isPrefixOf? rest).map (.null, ·)
    | 't' :: rest => ("rue".toList.isPrefixOf? rest).map (.bool true, ·)
    | 'f' :: rest => ("alse".toList.isPrefixOf? rest).map (.bool false, ·)
    | '"' :: rest => (string? rest).map fun (text, rest) => (.str text, rest)
    | '[' :: rest => match skipSpace rest with
      | ']' :: rest => some (.arr [], rest)
      | rest => (items? fuel rest).map fun (items, rest) => (.arr items, rest)
    | '\x7b' :: rest => match skipSpace rest with
      | '\x7d' :: rest => some (.obj [], rest)
      | rest => (members? fuel rest).map fun (members, rest) => (.obj members, rest)
    | rest => number? rest

/-- Reads the items of an array and its closing bracket. -/
def items? : Nat → List Char → Option (List Json × List Char)
  | 0, _ => none
  | fuel + 1, cs => (value? fuel cs).bind fun (v, rest) => match skipSpace rest with
    | ',' :: rest => (items? fuel rest).map fun (vs, rest) => (v :: vs, rest)
    | ']' :: rest => some ([v], rest)
    | _ => none

/-- Reads the members of an object and its closing brace. -/
def members? : Nat → List Char → Option (List (Option String × Json) × List Char)
  | 0, _ => none
  | fuel + 1, cs => match skipSpace cs with
    | '"' :: rest => (string? rest).bind fun (name, rest) => match skipSpace rest with
      | ':' :: rest => (value? fuel rest).bind fun (v, rest) => match skipSpace rest with
        | ',' :: rest => (members? fuel rest).map fun (ms, rest) => ((name, v) :: ms, rest)
        | '\x7d' :: rest => some ([(name, v)], rest)
        | _ => none
      | _ => none
    | _ => none

end

/-- Reads a JSON text.  Every value and every list of values takes a step, and a list takes at
least as many characters as it takes steps beyond those of its values. -/
def read? (s : String) : Option Json :=
  let cs := s.toList
  match value? (2 * cs.length + 1) cs with
  | some (v, rest) => if skipSpace rest = [] then some v else none
  | none => none

end Json

end QueryEditor
