import Mathlib.Algebra.Group.Nat.Defs
import QueryEditor.Proofs.Numerals
import QueryEditor.TimestampLiteral

/-!
# Dates and times as they are written

A written literal is put together from numerals of a fixed width: a day and perhaps a time of
day (`WrittenTimestamp`), or an internet timestamp with its offset (`InternetTimestamp`).  Its
`fields` are the numbers that are written there, whether or not they name a moment.

* `digits?_numeral`, `fraction?_numeral` : **a numeral is read as its number**, and the digits of a
  fraction as whole nanoseconds.
* `WrittenTimestamp.readParts?_chars` : the pattern that a literal is written in reads its fields.
* `InternetTimestamp.internet?_chars` : so does the reader of internet timestamps, except for a
  leap second.
-/

namespace QueryEditor

namespace TimestampLiteral

open Numeral (digit?)

variable {count n : Nat} {most : Option Nat} {f g : Fields} {cs rest : List Char}

/-! ### Numerals of a fixed width -/

theorem digit?_digitChar : ∀ d < 10, digit? (Nat.digitChar d) = some d := by decide

/-- The last digits of a number, so many of them. -/
def lastDigits : Nat → Nat → List Nat
  | 0, _ => []
  | count + 1, n => lastDigits count (n / 10) ++ [n % 10]

theorem length_lastDigits (count n : Nat) : (lastDigits count n).length = count := by
  induction count generalizing n with
  | zero => rfl
  | succ count ih => rw [lastDigits, List.length_append, ih, List.length_singleton]

theorem lt_of_mem_lastDigits (count n : Nat) : ∀ d ∈ lastDigits count n, d < 10 := by
  induction count generalizing n with
  | zero => exact fun d hd => absurd hd List.not_mem_nil
  | succ count ih =>
    rw [lastDigits, List.forall_mem_append]
    exact ⟨ih _, by simpa using Nat.mod_lt n (by decide)⟩

theorem lastDigits_append_zeros (count more n : Nat) :
    lastDigits count n ++ List.replicate more 0 = lastDigits (count + more) (n * 10 ^ more) := by
  induction more with
  | zero => simp
  | succ more ih =>
    have hdiv : n * 10 ^ (more + 1) / 10 = n * 10 ^ more := by
      rw [Nat.pow_succ, ← Nat.mul_assoc, Nat.mul_div_cancel _ (by decide)]
    have hmod : n * 10 ^ (more + 1) % 10 = 0 := by
      rw [Nat.pow_succ, ← Nat.mul_assoc, Nat.mul_mod_left]
    rw [List.replicate_succ', ← List.append_assoc, ih, ← Nat.add_assoc, lastDigits, hdiv, hmod]

theorem take_lastDigits (count more n : Nat) :
    (lastDigits (count + more) n).take count = lastDigits count (n / 10 ^ more) := by
  induction more generalizing n with
  | zero => simp [List.take_of_length_le (Nat.le_of_eq (length_lastDigits count n))]
  | succ more ih =>
    have hle : count ≤ (lastDigits (count + more) (n / 10)).length := by simp [length_lastDigits]
    rw [← Nat.add_assoc, lastDigits, List.take_append_of_le_length hle, ih,
      Nat.div_div_eq_div_mul, Nat.pow_succ']

theorem foldl_lastDigits (h : n < 10 ^ count) (start : Nat) :
    (lastDigits count n).foldl (fun n d => 10 * n + d) start = 10 ^ count * start + n := by
  induction count generalizing n with
  | zero =>
    obtain rfl : n = 0 := by simpa using h
    simp [lastDigits]
  | succ count ih =>
    rw [Nat.pow_succ'] at h ⊢
    have hdiv : n / 10 < 10 ^ count := by omega
    rw [lastDigits, List.foldl_append, ih hdiv, List.foldl_cons, List.foldl_nil, Nat.mul_assoc]
    omega

/-- The digits of a fraction stand for its value in whole nanoseconds. -/
theorem nanoseconds_lastDigits (h : n < 10 ^ count) :
    nanoseconds (lastDigits count n) = n * 10 ^ 9 / 10 ^ count := by
  have hlt : n * 10 ^ 9 / 10 ^ count < 10 ^ 9 := by
    rw [Nat.div_lt_iff_lt_mul (Nat.pow_pos (by decide)), Nat.mul_comm]
    exact Nat.mul_lt_mul_of_pos_left h (by decide)
  rw [nanoseconds, lastDigits_append_zeros, Nat.add_comm count 9, take_lastDigits,
    foldl_lastDigits hlt, Nat.mul_zero, Nat.zero_add]

/-- A number as a numeral of so many digits. -/
def numeral (count n : Nat) : List Char := (lastDigits count n).map Nat.digitChar

theorem exists_numeral_succ (count n : Nat) :
    ∃ d < 10, ∃ cs, numeral (count + 1) n = Nat.digitChar d :: cs := by
  obtain ⟨d, ds, hds⟩ := List.exists_cons_of_length_eq_add_one (length_lastDigits (count + 1) n)
  have hd := lt_of_mem_lastDigits (count + 1) n d (hds ▸ List.mem_cons_self)
  exact ⟨d, hd, ds.map Nat.digitChar, by rw [numeral, hds, List.map_cons]⟩

theorem digits?_map {ds : List Nat} (h : ∀ d ∈ ds, d < 10) (n : Nat) (rest : List Char) :
    digits? ds.length n (ds.map Nat.digitChar ++ rest) =
      some (ds.foldl (fun n d => 10 * n + d) n, rest) := by
  induction ds generalizing n with
  | nil => rfl
  | cons d ds ih =>
    obtain ⟨hd, hds⟩ := List.forall_mem_cons.1 h
    rw [List.length_cons, List.map_cons, List.cons_append, digits?, digit?_digitChar d hd,
      Option.bind_some, ih hds, List.foldl_cons]

/-- **A numeral is read as its number.** -/
theorem digits?_numeral (n : Fin (10 ^ count)) (rest : List Char) :
    digits? count 0 (numeral count n ++ rest) = some (n.val, rest) := by
  have hread := digits?_map (lt_of_mem_lastDigits count n) 0 rest
  rwa [length_lastDigits, foldl_lastDigits n.isLt, Nat.mul_zero, Nat.zero_add] at hread

theorem signedYear?_cons {c : Char} (h : (digit? c).isSome) (cs : List Char) :
    signedYear? (c :: cs) = (digits? 4 0 (c :: cs)).map fun (n, rest) => ((n : Int), rest) := by
  unfold signedYear?
  split
  case h_1 heq =>
    obtain ⟨rfl, -⟩ := List.cons.inj heq
    cases h
  case h_2 heq =>
    obtain ⟨rfl, -⟩ := List.cons.inj heq
    cases h
  case h_3 => rfl

theorem signedYear?_numeral (n : Fin (10 ^ 4)) (rest : List Char) :
    signedYear? (numeral 4 n ++ rest) = some ((n.val : Int), rest) := by
  have hread := digits?_numeral n rest
  obtain ⟨d, hd, cs, hcs⟩ := exists_numeral_succ 3 n
  rw [hcs, List.cons_append] at hread ⊢
  rw [signedYear?_cons (by rw [digit?_digitChar d hd, Option.isSome_some]), hread, Option.map_some]

theorem leadingDigits_map {ds : List Nat} (h : ∀ d ∈ ds, d < 10)
    (hrest : ∀ c ∈ rest.head?, digit? c = none) :
    leadingDigits (ds.map Nat.digitChar ++ rest) = ds := by
  induction ds with
  | nil =>
    cases rest with
    | nil => rfl
    | cons c rest => simp [leadingDigits, hrest c rfl]
  | cons d ds ih =>
    obtain ⟨hd, hds⟩ := List.forall_mem_cons.1 h
    simp only [List.map_cons, List.cons_append, leadingDigits, digit?_digitChar d hd, ih hds]

/-- **The digits of a fraction are read as its nanoseconds.** -/
theorem fraction?_numeral (hcount : 0 < count) (hmost : ∀ m ∈ most, count ≤ m)
    (n : Fin (10 ^ count)) (hrest : ∀ c ∈ rest.head?, digit? c = none) :
    fraction? most (numeral count n ++ rest) = some (n.val * 10 ^ 9 / 10 ^ count, rest) := by
  have hlength := length_lastDigits count n
  have hleading : leadingDigits (numeral count n ++ rest) = lastDigits count n :=
    leadingDigits_map (lt_of_mem_lastDigits count n) hrest
  have hne : lastDigits count n ≠ [] := List.ne_nil_of_length_pos (by omega)
  have hdrop : (numeral count n ++ rest).drop count = rest :=
    List.drop_left' (by rw [numeral, List.length_map, hlength])
  have hfits : ¬(most.any (· < count) = true) := by
    cases most with
    | none => simp
    | some m => simpa using hmost m rfl
  rw [fraction?, hleading, hlength, if_neg (not_or.2 ⟨hne, hfits⟩), hdrop,
    nanoseconds_lastDigits n.isLt]

/-! ### What is written -/

/-- A day: four digits of the year, two of the month and two of the day. -/
structure WrittenDay where
  year : Fin (10 ^ 4)
  month : Fin (10 ^ 2)
  day : Fin (10 ^ 2)

/-- What joins the parts of a day. -/
inductive Joint
  | dash
  | slash

/-- A fraction of a second, with `most` digits at the most. -/
structure WrittenFraction (most : Option Nat) where
  count : Nat
  value : Fin (10 ^ count)
  count_pos : 0 < count
  count_le : ∀ m ∈ most, count ≤ m

/-- Seconds, with a fraction or without. -/
structure WrittenSeconds (most : Option Nat) where
  second : Fin (10 ^ 2)
  fraction : Option (WrittenFraction most)

/-- What stands between a day and a time of day. -/
inductive Separator
  | space
  | letter

/-- A time of day, with seconds or without. -/
structure WrittenTime where
  separator : Separator
  hour : Fin (10 ^ 2)
  minute : Fin (10 ^ 2)
  seconds : Option (WrittenSeconds (some 32))

/-- A day, with a time of day or without. -/
structure WrittenTimestamp where
  day : WrittenDay
  time : Option WrittenTime

/-- The distance from universal time. -/
inductive Zone
  | utc
  | ahead (hour : Fin 24) (minute : Fin 60)
  | behind (hour : Fin 24) (minute : Fin 60)

/-- A timestamp with a zone, as RFC 3339 has it. -/
structure InternetTimestamp where
  day : WrittenDay
  hour : Fin (10 ^ 2)
  minute : Fin (10 ^ 2)
  seconds : WrittenSeconds none
  zone : Zone

/-! ### Its characters -/

def Joint.char : Joint → Char
  | dash => '-'
  | slash => '/'

def Separator.char : Separator → Char
  | space => ' '
  | letter => 'T'

def WrittenDay.chars (joint : Joint) (d : WrittenDay) : List Char :=
  numeral 4 d.year ++ joint.char :: (numeral 2 d.month ++ joint.char :: numeral 2 d.day)

def WrittenSeconds.fractionChars (s : WrittenSeconds most) : List Char :=
  match s.fraction with
  | none => []
  | some x => '.' :: numeral x.count x.value

def WrittenSeconds.chars (s : WrittenSeconds most) : List Char :=
  numeral 2 s.second ++ s.fractionChars

def WrittenTime.chars (t : WrittenTime) : List Char :=
  t.separator.char :: (numeral 2 t.hour ++ ':' :: (numeral 2 t.minute ++ match t.seconds with
    | none => []
    | some s => ':' :: s.chars))

/-- The characters of a timestamp, the parts of its day joined one way or the other. -/
def WrittenTimestamp.chars (joint : Joint) (w : WrittenTimestamp) : List Char :=
  w.day.chars joint ++ match w.time with
    | none => []
    | some t => t.chars

def Zone.chars : Zone → List Char
  | utc => ['Z']
  | ahead hour minute => '+' :: (numeral 2 hour ++ ':' :: numeral 2 minute)
  | behind hour minute => '-' :: (numeral 2 hour ++ ':' :: numeral 2 minute)

/-- The characters of an internet timestamp. -/
def InternetTimestamp.chars (i : InternetTimestamp) : List Char :=
  i.day.chars .dash ++ 'T' :: (numeral 2 i.hour ++ ':' :: (numeral 2 i.minute ++ ':' ::
    (i.seconds.chars ++ i.zone.chars)))

/-! ### Its numbers -/

/-- The numbers of a day, at midnight. -/
def WrittenDay.fields (d : WrittenDay) : Fields :=
  { year := d.year, month := d.month, day := d.day }

/-- A fraction of a second in whole nanoseconds; what is less than one is cut off. -/
def WrittenFraction.nanosecond (x : WrittenFraction most) : Nat :=
  x.value * 10 ^ 9 / 10 ^ x.count

/-- The nanoseconds of a fraction, none where it is left out. -/
def WrittenSeconds.nanosecond (s : WrittenSeconds most) : Nat :=
  match s.fraction with
  | none => 0
  | some x => x.nanosecond

/-- The numbers of a timestamp; those that it leaves out are zero. -/
def WrittenTimestamp.fields (w : WrittenTimestamp) : Fields :=
  match w.time with
  | none => w.day.fields
  | some t => match t.seconds with
    | none => { w.day.fields with hour := t.hour, minute := t.minute }
    | some s =>
      { w.day.fields with
        hour := t.hour, minute := t.minute, second := s.second, nanosecond := s.nanosecond }

/-- The numbers of an internet timestamp, without its offset. -/
def InternetTimestamp.fields (i : InternetTimestamp) : Fields :=
  { i.day.fields with
    hour := i.hour, minute := i.minute
    second := i.seconds.second, nanosecond := i.seconds.nanosecond }

/-- The offset of a zone in minutes. -/
def Zone.offset : Zone → Int
  | utc => 0
  | ahead hour minute => 60 * hour.val + minute.val
  | behind hour minute => -(60 * hour.val + minute.val)

/-! ### The pattern it is written in -/

/-- The smallest part of a time of day that is written. -/
inductive Precision
  | minute
  | second
  | fraction

def WrittenTime.precision (t : WrittenTime) : Precision :=
  match t.seconds with
  | none => .minute
  | some s => match s.fraction with
    | none => .second
    | some _ => .fraction

def Precision.pattern : Precision → List Part
  | minute => minutePattern
  | second => secondPattern
  | fraction => fractionPattern

/-- The pattern of a day and of a time of day after it. -/
def timePattern (joint : Joint) (separator : Separator) (precision : Precision) : List Part :=
  datePattern joint.char ++ .mark separator.char :: precision.pattern

/-- The pattern that a timestamp is written in. -/
def WrittenTimestamp.pattern (joint : Joint) (w : WrittenTimestamp) : List Part :=
  match w.time with
  | none => datePattern joint.char
  | some t => timePattern joint t.separator t.precision

/-! ### Reading by a pattern -/

theorem readParts?_append {parts : List Part}
    (h : readParts? parts f cs = some (g, rest)) (more : List Part) :
    readParts? (parts ++ more) f cs = readParts? more g rest := by
  induction parts generalizing f cs with
  | nil =>
    cases h
    rfl
  | cons part parts ih =>
    obtain ⟨⟨f', after⟩, hpart, h⟩ := Option.bind_eq_some_iff.1 h
    rw [List.cons_append, readParts?, hpart]
    exact ih h

theorem readParts?_mark (c : Char) (parts : List Part) (f : Fields) (rest : List Char) :
    readParts? (.mark c :: parts) f (c :: rest) = readParts? parts f rest := by
  simp [readParts?, Part.read?]

theorem readParts?_anyMark {c : Char} (hc : c.toNat < 128) (parts : List Part) (f : Fields)
    (rest : List Char) :
    readParts? (.anyMark :: parts) f (c :: rest) = readParts? parts f rest := by
  simp [readParts?, Part.read?, hc]

theorem readParts?_datePattern (joint : Joint) (d : WrittenDay) (rest : List Char) :
    readParts? (datePattern joint.char) {} (d.chars joint ++ rest) = some (d.fields, rest) := by
  simp [readParts?, datePattern, Part.read?, WrittenDay.chars, WrittenDay.fields,
    signedYear?_numeral, digits?_numeral]

theorem readParts?_minutePattern (hour minute : Fin (10 ^ 2)) (f : Fields) (rest : List Char) :
    readParts? minutePattern f (numeral 2 hour ++ ':' :: (numeral 2 minute ++ rest)) =
      some ({ f with hour := hour, minute := minute }, rest) := by
  simp [readParts?, minutePattern, Part.read?, digits?_numeral]

theorem readParts?_secondPattern (hour minute second : Fin (10 ^ 2)) (f : Fields)
    (rest : List Char) :
    readParts? secondPattern f
        (numeral 2 hour ++ ':' :: (numeral 2 minute ++ ':' :: (numeral 2 second ++ rest))) =
      some ({ f with hour := hour, minute := minute, second := second }, rest) := by
  rw [secondPattern, readParts?_append (readParts?_minutePattern hour minute f _), readParts?_mark]
  simp [readParts?, Part.read?, digits?_numeral]

theorem readParts?_fractionPattern (hour minute second : Fin (10 ^ 2))
    (x : WrittenFraction (some 32)) (f : Fields) :
    readParts? fractionPattern f (numeral 2 hour ++ ':' :: (numeral 2 minute ++ ':' ::
        (numeral 2 second ++ '.' :: numeral x.count x.value))) =
      some ({ f with hour := hour, minute := minute, second := second, nanosecond := x.nanosecond },
        []) := by
  have hend : ∀ c ∈ ([] : List Char).head?, digit? c = none := nofun
  have hread := fraction?_numeral x.count_pos x.count_le x.value hend
  rw [List.append_nil] at hread
  rw [fractionPattern, readParts?_append (readParts?_secondPattern hour minute second f _),
    readParts?_mark]
  simp only [readParts?, Part.read?, hread, Option.map_some, Option.bind_some]
  rfl

/-- **The pattern that a timestamp is written in reads its numbers.** -/
theorem WrittenTimestamp.readParts?_chars (joint : Joint) (w : WrittenTimestamp) :
    readParts? (w.pattern joint) {} (w.chars joint) = some (w.fields, []) := by
  obtain ⟨day, time⟩ := w
  have hday := readParts?_datePattern joint day
  match time with
  | none => exact hday []
  | some ⟨separator, hour, minute, seconds⟩ =>
    refine (readParts?_append (hday _) _).trans ((readParts?_mark ..).trans ?_)
    match seconds with
    | none => exact readParts?_minutePattern hour minute day.fields []
    | some ⟨second, none⟩ => exact readParts?_secondPattern hour minute second day.fields []
    | some ⟨second, some x⟩ => exact readParts?_fractionPattern hour minute second x day.fields

/-! ### Reading an internet timestamp -/

theorem offsetSize?_chars (hour : Fin 24) (minute : Fin 60) :
    offsetSize? (numeral 2 hour ++ ':' :: numeral 2 minute) =
      some (60 * hour.val + minute.val) := by
  have hread := readParts?_minutePattern (hour.castLE (by decide)) (minute.castLE (by decide)) {} []
  have hfits : hour.val < 24 ∧ minute.val < 60 := ⟨hour.isLt, minute.isLt⟩
  simp only [Fin.val_castLE, List.append_nil] at hread
  simp only [offsetSize?, hread, hfits, and_self, if_true]

theorem Zone.offset?_chars (z : Zone) : offset? z.chars = some z.offset := by
  cases z with
  | utc => rfl
  | ahead hour minute =>
    rw [chars, offset?, offsetSize?_chars]
    rfl
  | behind hour minute =>
    rw [chars, offset?, offsetSize?_chars]
    rfl

theorem readParts?_internetDay (d : WrittenDay) (rest : List Char) :
    readParts? internetPattern {} (d.chars .dash ++ rest) =
      readParts? (.anyMark :: secondPattern) d.fields rest := by
  simp [internetPattern, readParts?, Part.read?, WrittenDay.chars, Joint.char, WrittenDay.fields,
    digits?_numeral]

theorem readParts?_internetPattern (d : WrittenDay) {c : Char} (hc : c.toNat < 128)
    (hour minute : Fin (10 ^ 2)) (s : WrittenSeconds most) (rest : List Char) :
    readParts? internetPattern {} (d.chars .dash ++ c :: (numeral 2 hour ++ ':' ::
        (numeral 2 minute ++ ':' :: (s.chars ++ rest)))) =
      some ({ d.fields with hour := hour, minute := minute, second := s.second },
        s.fractionChars ++ rest) := by
  rw [readParts?_internetDay, readParts?_anyMark hc, WrittenSeconds.chars, List.append_assoc]
  exact readParts?_secondPattern hour minute s.second d.fields _

/-- Reads a fraction of a second after a point, if there is one. -/
def fractional? (cs : List Char) : Option (Nat × List Char) :=
  match cs with
  | '.' :: rest => fraction? none rest
  | _ => some (0, cs)

theorem internet?_of_readParts? (h : readParts? internetPattern {} cs = some (f, rest)) :
    internet? cs = (fractional? rest).bind fun (nanosecond, rest) =>
      (offset? rest).bind fun offset =>
        if f.second = 60 then
          ({ f with second := 59, nanosecond := 999999999 } : Fields).timestamp?.bind fun t =>
            if endsMonth t offset then some t else none
        else ({ f with nanosecond := nanosecond } : Fields).timestamp? := by
  rw [internet?, h]
  rfl

theorem WrittenSeconds.fractional?_chars (s : WrittenSeconds most)
    (hrest : ∀ c ∈ rest.head?, digit? c = none ∧ c ≠ '.') :
    fractional? (s.fractionChars ++ rest) = some (s.nanosecond, rest) := by
  obtain ⟨second, fraction⟩ := s
  cases fraction with
  | none =>
    rw [fractionChars, List.nil_append]
    unfold fractional?
    split
    case h_1 => exact absurd rfl (hrest '.' rfl).2
    case h_2 => rfl
  | some x =>
    exact fraction?_numeral x.count_pos (fun _ h => by cases h) x.value fun c hc => (hrest c hc).1

/-- **An internet timestamp is read as its numbers**, except for a leap second. -/
theorem InternetTimestamp.internet?_chars (i : InternetTimestamp) :
    internet? i.chars = if i.fields.second = 60 then
      ({ i.fields with second := 59, nanosecond := 999999999 } : Fields).timestamp?.bind fun t =>
        if endsMonth t i.zone.offset then some t else none
    else i.fields.timestamp? := by
  obtain ⟨day, hour, minute, seconds, zone⟩ := i
  have hletter : 'T'.toNat < 128 := by decide
  have hread := readParts?_internetPattern day hletter hour minute seconds
  have hmark : ∀ c ∈ zone.chars.head?, digit? c = none ∧ c ≠ '.' := by
    cases zone <;> simp [Zone.chars] <;> decide
  have hfractional := seconds.fractional?_chars hmark
  refine (internet?_of_readParts? (hread _)).trans ?_
  simp only [hfractional, zone.offset?_chars, Option.bind_some]
  rfl

/-- Nothing that lacks a zone is an internet timestamp. -/
theorem WrittenTimestamp.internet?_chars (joint : Joint) (w : WrittenTimestamp) :
    internet? (w.chars joint) = none := by
  have hnone {cs : List Char} (h : readParts? internetPattern {} cs = none) :
      internet? cs = none := by
    rw [internet?, h, Option.bind_none]
  obtain ⟨day, time⟩ := w
  cases joint with
  | slash =>
    refine hnone ?_
    simp [internetPattern, chars, WrittenDay.chars, Joint.char, readParts?, Part.read?,
      digits?_numeral]
  | dash =>
    match time with
    | none => exact hnone (readParts?_internetDay day [])
    | some ⟨separator, hour, minute, seconds⟩ =>
      have hseparator : separator.char.toNat < 128 := by cases separator <;> decide
      match seconds with
      | none =>
        -- nothing is left where the seconds have to come
        have htime := readParts?_minutePattern hour minute day.fields []
        refine hnone ((readParts?_internetDay day _).trans ?_)
        exact (readParts?_anyMark hseparator ..).trans (readParts?_append htime _)
      | some s =>
        -- nothing is left where the zone has to come
        have hread := readParts?_internetPattern day hseparator hour minute s []
        have hend : ∀ c ∈ ([] : List Char).head?, digit? c = none ∧ c ≠ '.' := nofun
        have hfractional := s.fractional?_chars hend
        rw [List.append_nil] at hread
        refine (internet?_of_readParts? hread).trans ?_
        rw [hfractional]
        rfl

/-! ### No white space around it -/

/-- A text whose first character is a digit. -/
def StartsWithDigit (cs : List Char) : Prop := ∃ c ∈ cs.head?, (digit? c).isSome

/-- A text whose last character is not white space. -/
def EndsInk (cs : List Char) : Prop := ∃ c ∈ cs.getLast?, Text.isBlank c = false

theorem isBlank_of_digit? {c : Char} (h : (digit? c).isSome) : Text.isBlank c = false := by
  unfold digit? at h
  split at h
  case isTrue hc => exact Numeral.isBlank_of_isDigit (by simpa [Char.isDigit, Char.le_def] using hc)
  case isFalse => cases h

theorem trimmed_of_endsInk (hfirst : StartsWithDigit cs) (hlast : EndsInk cs) :
    Text.trimmed cs = cs := by
  have hkeep {c : Char} {cs : List Char} (hc : c ∈ cs.head?) (hblank : Text.isBlank c = false) :
      Text.trimLeft cs = cs := by
    obtain ⟨rest, rfl⟩ := List.head?_eq_some_iff.1 hc
    exact List.dropWhile_cons_of_neg (by simp [hblank])
  obtain ⟨c, hc, hdigit⟩ := hfirst
  obtain ⟨d, hd, hblank⟩ := hlast
  rw [← List.head?_reverse] at hd
  rw [Text.trimmed, hkeep hc (isBlank_of_digit? hdigit), Text.trimRight, hkeep hd hblank,
    List.reverse_reverse]

theorem EndsInk.append (h : EndsInk cs) (first : List Char) : EndsInk (first ++ cs) := by
  obtain ⟨c, hc, hblank⟩ := h
  refine ⟨c, ?_, hblank⟩
  rw [Option.mem_def] at hc ⊢
  rw [List.getLast?_append, hc, Option.some_or]

theorem EndsInk.cons (h : EndsInk cs) (c : Char) : EndsInk (c :: cs) := h.append [c]

theorem endsInk_numeral (hcount : 0 < count) (n : Nat) : EndsInk (numeral count n) := by
  obtain ⟨shorter, rfl⟩ : ∃ shorter, count = shorter + 1 := ⟨count - 1, by omega⟩
  refine ⟨Nat.digitChar (n % 10), by simp [numeral, lastDigits], isBlank_of_digit? ?_⟩
  rw [digit?_digitChar _ (Nat.mod_lt n (by decide)), Option.isSome_some]

theorem WrittenDay.startsWithDigit (joint : Joint) (d : WrittenDay) (rest : List Char) :
    StartsWithDigit (d.chars joint ++ rest) := by
  obtain ⟨digit, hdigit, cs, hcs⟩ := exists_numeral_succ 3 d.year
  refine ⟨Nat.digitChar digit, ?_, by rw [digit?_digitChar digit hdigit, Option.isSome_some]⟩
  rw [chars, hcs]
  rfl

theorem WrittenSeconds.endsInk (s : WrittenSeconds most) : EndsInk s.chars := by
  match s with
  | ⟨second, none⟩ =>
    rw [chars, fractionChars, List.append_nil]
    exact endsInk_numeral (by decide) second
  | ⟨second, some x⟩ => exact ((endsInk_numeral x.count_pos x.value).cons '.').append _

theorem WrittenTime.endsInk (t : WrittenTime) : EndsInk t.chars := by
  obtain ⟨separator, hour, minute, seconds⟩ := t
  refine (EndsInk.cons ?_ ':').append _ |>.cons _
  cases seconds with
  | none =>
    rw [List.append_nil]
    exact endsInk_numeral (by decide) minute
  | some s => exact (s.endsInk.cons ':').append _

theorem Zone.endsInk (z : Zone) : EndsInk z.chars := by
  cases z with
  | utc => exact ⟨'Z', rfl, rfl⟩
  | ahead hour minute => exact (((endsInk_numeral (by decide) minute).cons ':').append _).cons '+'
  | behind hour minute => exact (((endsInk_numeral (by decide) minute).cons ':').append _).cons '-'

theorem WrittenTimestamp.startsWithDigit (joint : Joint) (w : WrittenTimestamp) :
    StartsWithDigit (w.chars joint) :=
  w.day.startsWithDigit joint _

theorem InternetTimestamp.startsWithDigit (i : InternetTimestamp) : StartsWithDigit i.chars :=
  i.day.startsWithDigit .dash _

theorem WrittenTimestamp.trimmed_chars (joint : Joint) (w : WrittenTimestamp) :
    Text.trimmed (w.chars joint) = w.chars joint := by
  refine trimmed_of_endsInk (w.startsWithDigit joint) ?_
  match w with
  | ⟨day, none⟩ =>
    rw [chars, List.append_nil]
    exact ((endsInk_numeral (by decide) day.day).cons _).append _ |>.cons _ |>.append _
  | ⟨day, some t⟩ => exact t.endsInk.append _

theorem InternetTimestamp.trimmed_chars (i : InternetTimestamp) :
    Text.trimmed i.chars = i.chars := by
  refine trimmed_of_endsInk i.startsWithDigit ?_
  have hzone : EndsInk (i.seconds.chars ++ i.zone.chars) := i.zone.endsInk.append _
  exact (((hzone.cons ':').append _).cons ':').append _ |>.cons 'T' |>.append _

end TimestampLiteral

end QueryEditor
