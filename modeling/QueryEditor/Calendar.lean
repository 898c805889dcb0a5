/-!
# Dates and times of day

`Date` and `TimeOfDay` hold only what exists: a day of its month in the Gregorian calendar, a
time below 24 hours.  `Date.ofFields?` and `TimeOfDay.ofFields?` turn numbers away that name
nothing.
-/

namespace QueryEditor

namespace Calendar

/-- Every fourth year is a leap year, except for centuries that 400 does not divide. -/
def isLeap (year : Int) : Bool := year % 4 == 0 && (year % 100 != 0 || year % 400 == 0)

/-- The number of days in a month. -/
def monthLength (year : Int) : Nat → Nat
  | 2 => if isLeap year then 29 else 28
  | 4 | 6 | 9 | 11 => 30
  | _ => 31

end Calendar

/-- A day of the calendar. -/
structure Date where
  year : Int
  month : Nat
  day : Nat
  month_mem : 1 ≤ month ∧ month ≤ 12
  day_mem : 1 ≤ day ∧ day ≤ Calendar.monthLength year month
  deriving DecidableEq, Repr

/-- A time of day to the nanosecond. -/
structure TimeOfDay where
  hour : Nat
  minute : Nat
  second : Nat
  nanosecond : Nat
  inDay : hour < 24 ∧ minute < 60 ∧ second < 60 ∧ nanosecond < 1000000000
  deriving DecidableEq, Repr

/-- A date and a time of day. -/
structure Timestamp where
  date : Date
  time : TimeOfDay
  deriving DecidableEq, Repr

/-- The day with these numbers, if the calendar has it. -/
def Date.ofFields? (year : Int) (month day : Nat) : Option Date :=
  if hm : 1 ≤ month ∧ month ≤ 12 then
    if hd : 1 ≤ day ∧ day ≤ Calendar.monthLength year month then some ⟨year, month, day, hm, hd⟩
    else none
  else none

/-- The time with these numbers, if the day has it. -/
def TimeOfDay.ofFields? (hour minute second nanosecond : Nat) : Option TimeOfDay :=
  if h : hour < 24 ∧ minute < 60 ∧ second < 60 ∧ nanosecond < 1000000000 then
    some ⟨hour, minute, second, nanosecond, h⟩
  else none

theorem Date.ofFields?_self (d : Date) : ofFields? d.year d.month d.day = some d := by
  simp [ofFields?, d.month_mem, d.day_mem]

theorem TimeOfDay.ofFields?_self (t : TimeOfDay) :
    ofFields? t.hour t.minute t.second t.nanosecond = some t := by
  have h := t.inDay
  simp [ofFields?, h]

end QueryEditor
