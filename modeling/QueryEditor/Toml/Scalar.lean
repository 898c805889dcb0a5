import QueryEditor.TimestampLiteral
import QueryEditor.Toml.Basic
import QueryEditor.Toml.Number
import QueryEditor.Toml.Text

/-!
# Values without delimiters in TOML

A truth value, a number or a moment is one run of letters, digits and a few marks; a date and a
time may also have a space between them.
-/

namespace QueryEditor

namespace Toml

/-- The characters of a run. -/
def isRunChar (c : Char) : Bool :=
  c.isAlphanum || c == '_' || c == '+' || c == '-' || c == '.' || c == ':'

/-! ### Moments -/

open TimestampLiteral (Part Fields readParts? secondPattern leadingDigits offset?)

/-- Drops a date. -/
def skipDate? (cs : List Char) : Option (List Char) :=
  (readParts? [.year, .mark '-', .month, .mark '-', .day] {} cs).bind fun (f, rest) =>
    (Date.ofFields? f.year f.month f.day).map fun _ => rest

/-- Drops the fraction of a second, if there is one. -/
def skipSecondFraction? : List Char → Option (List Char)
  | '.' :: cs =>
    if leadingDigits cs = [] then none else some (cs.drop (leadingDigits cs).length)
  | cs => some cs

/-- Drops a time of day, which may be a leap second. -/
def skipTime? (cs : List Char) : Option (List Char) :=
  (readParts? secondPattern {} cs).bind fun (f, rest) =>
    if f.hour < 24 ∧ f.minute < 60 ∧ f.second ≤ 60 then skipSecondFraction? rest else none

/-- Whether a run is a time of day without an offset. -/
def isTime (cs : List Char) : Bool := skipTime? cs == some []

/-- Whether a run is a time of day, with or without an offset. -/
def isOffsetTime (cs : List Char) : Bool :=
  match skipTime? cs with
  | none => false
  | some rest => rest.isEmpty || (offset? rest).isSome

/-- Whether a run is a date, a time, or both with one of the marks between them. -/
def isMoment (cs : List Char) : Bool :=
  isTime cs || match skipDate? cs with
    | none => false
    | some [] => true
    | some (mark :: rest) => (mark == 'T' || mark == 't' || mark == ' ') && isOffsetTime rest

/-- Takes a run off a text.  After a date, a space and a digit belong to it. -/
def run (cs : List Char) : List Char × List Char :=
  let first := cs.takeWhile isRunChar
  let rest := cs.drop first.length
  match skipDate? first, rest with
  | some [], ' ' :: d :: more =>
    if d.isDigit then
      let second := (d :: more).takeWhile isRunChar
      (first ++ ' ' :: second, (d :: more).drop second.length)
    else (first, rest)
  | _, _ => (first, rest)

/-- Reads a truth value, a number or a moment. -/
def scalar? (cs : List Char) : Option (Toml × List Char) :=
  let (token, rest) := run cs
  if token = "true".toList then some (.boolean true, rest)
  else if token = "false".toList then some (.boolean false, rest)
  else if isNumber token then some (.number, rest)
  else if isMoment token then some (.moment, rest)
  else none

end Toml

end QueryEditor
