import QueryEditor.Calendar
import QueryEditor.Text.Blank
import QueryEditor.Text.Numeral

/-!
# Date and time literals

A literal is an internet timestamp (RFC 3339), whose offset from universal time is dropped, or
it follows one of the `Pattern`s listed in `patterns`.  The first reading that succeeds wins.
A literal without a time means midnight.
-/

namespace QueryEditor

namespace TimestampLiteral

open Numeral (digit?)

/-- One part of a pattern. -/
inductive Part
  /-- Four digits. -/
  | year
  /-- Four digits after an optional sign. -/
  | signedYear
  | month
  | day
  | hour
  | minute
  | second
  /-- Up to 32 digits of a fraction of a second, the first nine of which count. -/
  | fraction
  /-- This character. -/
  | mark (c : Char)
  /-- Any ASCII character. -/
  | anyMark
  deriving DecidableEq, Repr

/-- What the parts of a literal say; what they leave out is zero. -/
structure Fields where
  year : Int := 0
  month : Nat := 0
  day : Nat := 0
  hour : Nat := 0
  minute : Nat := 0
  second : Nat := 0
  nanosecond : Nat := 0
  deriving DecidableEq, Repr

/-- The moment that the fields name, if there is one. -/
def Fields.timestamp? (f : Fields) : Option Timestamp :=
  (Date.ofFields? f.year f.month f.day).bind fun date =>
    (TimeOfDay.ofFields? f.hour f.minute f.second f.nanosecond).map fun time => ⟨date, time⟩

/-- Reads exactly `count` more digits after those that make up `n`. -/
def digits? : Nat → Nat → List Char → Option (Nat × List Char)
  | 0, n, cs => some (n, cs)
  | _ + 1, _, [] => none
  | count + 1, n, c :: cs => (digit? c).bind fun d => digits? count (10 * n + d) cs

/-- Reads a year of four digits after an optional sign. -/
def signedYear? : List Char → Option (Int × List Char)
  | '-' :: cs => (digits? 4 0 cs).map fun (n, rest) => (-n, rest)
  | '+' :: cs => (digits? 4 0 cs).map fun (n, rest) => (n, rest)
  | cs => (digits? 4 0 cs).map fun (n, rest) => (n, rest)

/-- The digits that a text starts with. -/
def leadingDigits : List Char → List Nat
  | [] => []
  | c :: cs => match digit? c with
    | some d => d :: leadingDigits cs
    | none => []

/-- The nanoseconds that the digits of a fraction of a second stand for. -/
def nanoseconds (ds : List Nat) : Nat :=
  ((ds ++ List.replicate 9 0).take 9).foldl (fun n d => 10 * n + d) 0

/-- Reads one or more digits of a fraction, `most` of them at the most. -/
def fraction? (most : Option Nat) (cs : List Char) : Option (Nat × List Char) :=
  let ds := leadingDigits cs
  if ds = [] ∨ most.any (· < ds.length) then none else some (nanoseconds ds, cs.drop ds.length)

/-- Reads one part, and answers what is left of the text. -/
def Part.read? (f : Fields) (cs : List Char) : Part → Option (Fields × List Char)
  | .year => (digits? 4 0 cs).map fun (n, rest) => ({ f with year := n }, rest)
  | .signedYear => (signedYear? cs).map fun (n, rest) => ({ f with year := n }, rest)
  | .month => (digits? 2 0 cs).map fun (n, rest) => ({ f with month := n }, rest)
  | .day => (digits? 2 0 cs).map fun (n, rest) => ({ f with day := n }, rest)
  | .hour => (digits? 2 0 cs).map fun (n, rest) => ({ f with hour := n }, rest)
  | .minute => (digits? 2 0 cs).map fun (n, rest) => ({ f with minute := n }, rest)
  | .second => (digits? 2 0 cs).map fun (n, rest) => ({ f with second := n }, rest)
  | .fraction => (fraction? (some 32) cs).map fun (n, rest) => ({ f with nanosecond := n }, rest)
  | .mark c => match cs with
    | d :: rest => if d = c then some (f, rest) else none
    | [] => none
  | .anyMark => match cs with
    | d :: rest => if d.toNat < 128 then some (f, rest) else none
    | [] => none

/-- Reads the parts of a pattern one after the other. -/
def readParts? : List Part → Fields → List Char → Option (Fields × List Char)
  | [], f, cs => some (f, cs)
  | part :: parts, f, cs => (part.read? f cs).bind fun (f, rest) => readParts? parts f rest

/-! ### Patterns -/

/-- A date whose parts are joined by `c`. -/
def datePattern (c : Char) : List Part := [.signedYear, .mark c, .month, .mark c, .day]

/-- Hours and minutes. -/
def minutePattern : List Part := [.hour, .mark ':', .minute]

/-- Hours, minutes and seconds. -/
def secondPattern : List Part := minutePattern ++ [.mark ':', .second]

/-- Hours, minutes, seconds and a fraction of a second. -/
def fractionPattern : List Part := secondPattern ++ [.mark '.', .fraction]

/-- The patterns of a literal, in the order in which they are tried. -/
def patterns : List (List Part) :=
  [ datePattern '-' ++ [.mark 'T'] ++ fractionPattern,
    datePattern '-' ++ [.mark ' '] ++ fractionPattern,
    datePattern '-' ++ [.mark 'T'] ++ secondPattern,
    datePattern '-' ++ [.mark ' '] ++ secondPattern,
    datePattern '-' ++ [.mark 'T'] ++ minutePattern,
    datePattern '-' ++ [.mark ' '] ++ minutePattern,
    datePattern '/' ++ [.mark ' '] ++ secondPattern,
    datePattern '/' ++ [.mark ' '] ++ minutePattern,
    datePattern '-',
    datePattern '/' ]

/-- Reads a text that follows a pattern to its end. -/
def follow? (pattern : List Part) (cs : List Char) : Option Timestamp :=
  match readParts? pattern {} cs with
  | some (f, []) => f.timestamp?
  | _ => none

/-! ### Internet timestamps -/

/-- The parts of an internet timestamp before the fraction and the offset. -/
def internetPattern : List Part :=
  [.year, .mark '-', .month, .mark '-', .day, .anyMark] ++ secondPattern

/-- Reads hours and minutes of an offset, and answers the minutes they make. -/
def offsetSize? (cs : List Char) : Option Nat :=
  match readParts? minutePattern {} cs with
  | some (f, []) => if f.hour < 24 ∧ f.minute < 60 then some (60 * f.hour + f.minute) else none
  | _ => none

/-- Reads the offset from universal time, in minutes. -/
def offset? : List Char → Option Int
  | ['Z'] => some 0
  | ['z'] => some 0
  | '+' :: cs => (offsetSize? cs).map fun n => (n : Int)
  | '-' :: cs => (offsetSize? cs).map fun n => -(n : Int)
  | _ => none

/-- Whether a leap second may follow this minute: in universal time it must be the last one of
the last day of a month. -/
def endsMonth (t : Timestamp) (offset : Int) : Bool :=
  let minute := 60 * (t.time.hour : Int) + t.time.minute - offset
  (minute == 1439 && t.date.day == Calendar.monthLength t.date.year t.date.month) ||
    (minute == -1 && t.date.day == 1)

/-- Reads an internet timestamp.  A leap second is read as the end of the second before it. -/
def internet? (cs : List Char) : Option Timestamp :=
  (readParts? internetPattern {} cs).bind fun (f, rest) =>
    let fractional := match rest with
      | '.' :: rest => fraction? none rest
      | _ => some (0, rest)
    fractional.bind fun (nanosecond, rest) =>
      (offset? rest).bind fun offset =>
        if f.second = 60 then
          ({ f with second := 59, nanosecond := 999999999 } : Fields).timestamp?.bind fun t =>
            if endsMonth t offset then some t else none
        else ({ f with nanosecond := nanosecond } : Fields).timestamp?

/-- Reads a literal. -/
def read? (s : String) : Option Timestamp :=
  let cs := Text.trimmed s.toList
  (internet? cs).or (patterns.findSome? fun pattern => follow? pattern cs)

end TimestampLiteral

end QueryEditor
