import QueryEditor.Proofs.PaddedText
import QueryEditor.Proofs.TimestampTexts

/-!
# How dates and times are read

Which pattern a text can follow is seen from the characters in it that are not digits, since no
two patterns have the same ones.  So no pattern takes a text that was written in another one.

* `TimestampLiteral.marks_of_follow?` : **a text that follows a pattern has its marks.**
* `TimestampLiteral.exists_written` : every moment of a year of four digits is written in some
  literal.
* `TimestampLiteral.read?_literal` : a written literal is read as its fields, with white space
  around it or without, and is turned away if its day, its hour or its minute does not exist.
* `TimestampLiteral.read?_slash_eq_iff` : which timestamps are read with slashes as with dashes.
-/

namespace QueryEditor

/-! ### The calendar -/

theorem Calendar.monthLength_le (year : Int) (month : Nat) : monthLength year month ≤ 31 := by
  unfold monthLength
  split
  case h_1 => split <;> decide
  all_goals decide

theorem Date.fields_of_ofFields? {year : Int} {month day : Nat} {d : Date}
    (h : ofFields? year month day = some d) :
    d.year = year ∧ d.month = month ∧ d.day = day := by
  unfold ofFields? at h
  split at h
  case isFalse => cases h
  case isTrue =>
    split at h
    case isFalse => cases h
    case isTrue =>
      obtain rfl := Option.some.inj h
      exact ⟨rfl, rfl, rfl⟩

theorem TimeOfDay.lt_of_ofFields? {hour minute second nanosecond : Nat} {t : TimeOfDay}
    (h : ofFields? hour minute second nanosecond = some t) : hour < 24 ∧ minute < 60 := by
  unfold ofFields? at h
  split at h
  case isFalse => cases h
  case isTrue hfits => exact ⟨hfits.1, hfits.2.1⟩

namespace TimestampLiteral

open Numeral (digit?)
open Text (Padded)

variable {count n : Nat} {most : Option Nat} {c : Char} {cs rest : List Char} {f g : Fields}
  {part : Part} {parts : List Part} {s : String}

/-! ### Marks -/

/-- The characters of a text that are not digits. -/
def marks (cs : List Char) : List Char := cs.filter fun c => (digit? c).isNone

/-- The characters that a part reads and that are not digits. -/
def Part.marks : Part → List Char
  | .mark c => [c]
  | _ => []

/-- A part that reads digits only, or one mark. -/
def Part.isPlain : Part → Bool
  | .signedYear => false
  | .mark c => (digit? c).isNone
  | .anyMark => false
  | _ => true

theorem marks_cons_of_digit (h : (digit? c).isSome) (cs : List Char) :
    marks (c :: cs) = marks cs :=
  List.filter_cons_of_neg (by simpa [Option.isSome_iff_ne_none] using h)

theorem marks_cons_of_mark (h : (digit? c).isNone) (cs : List Char) :
    marks (c :: cs) = c :: marks cs :=
  List.filter_cons_of_pos h

theorem marks_append (first rest : List Char) :
    marks (first ++ rest) = marks first ++ marks rest :=
  List.filter_append ..

theorem marks_numeral (count n : Nat) : marks (numeral count n) = [] := by
  refine List.filter_eq_nil_iff.2 fun c hc => ?_
  obtain ⟨d, hd, rfl⟩ := List.mem_map.1 hc
  simp [digit?_digitChar d (lt_of_mem_lastDigits count n d hd)]

theorem marks_of_digits? {m : Nat} (h : digits? count n cs = some (m, rest)) :
    marks cs = marks rest := by
  induction count generalizing n cs with
  | zero =>
    cases h
    rfl
  | succ count ih =>
    cases cs with
    | nil => cases h
    | cons c cs =>
      obtain ⟨d, hd, h⟩ := Option.bind_eq_some_iff.1 h
      rw [marks_cons_of_digit (by rw [hd, Option.isSome_some]), ih h]

theorem marks_drop_leadingDigits (cs : List Char) :
    marks (cs.drop (leadingDigits cs).length) = marks cs := by
  induction cs with
  | nil => rfl
  | cons c cs ih =>
    rw [leadingDigits]
    split
    case h_1 d hd =>
      have hdigit : (digit? c).isSome := by rw [hd, Option.isSome_some]
      rw [List.length_cons, List.drop_succ_cons, ih, marks_cons_of_digit hdigit]
    case h_2 => rfl

theorem marks_of_fraction? {m : Nat} (h : fraction? most cs = some (m, rest)) :
    marks cs = marks rest := by
  unfold fraction? at h
  dsimp only at h
  split at h
  case isTrue => cases h
  case isFalse =>
    obtain ⟨-, rfl⟩ := Prod.mk.inj (Option.some.inj h)
    exact (marks_drop_leadingDigits cs).symm

theorem Part.marks_of_read? (hplain : part.isPlain) (h : part.read? f cs = some (g, rest)) :
    TimestampLiteral.marks cs = part.marks ++ TimestampLiteral.marks rest := by
  cases part with
  | signedYear | anyMark => cases hplain
  | year | month | day | hour | minute | second =>
    obtain ⟨⟨m, after⟩, hread, heq⟩ := Option.map_eq_some_iff.1 h
    obtain ⟨-, rfl⟩ := Prod.mk.inj heq
    exact marks_of_digits? hread
  | fraction =>
    obtain ⟨⟨m, after⟩, hread, heq⟩ := Option.map_eq_some_iff.1 h
    obtain ⟨-, rfl⟩ := Prod.mk.inj heq
    exact marks_of_fraction? hread
  | mark c =>
    simp only [read?] at h
    split at h
    case h_2 => cases h
    case h_1 d after =>
      split at h
      case isFalse => cases h
      case isTrue hc =>
        subst hc
        obtain ⟨-, rfl⟩ := Prod.mk.inj (Option.some.inj h)
        exact marks_cons_of_mark hplain _

theorem marks_of_readParts? (hplain : ∀ part ∈ parts, part.isPlain)
    (h : readParts? parts f cs = some (g, rest)) :
    marks cs = parts.flatMap Part.marks ++ marks rest := by
  induction parts generalizing f cs with
  | nil =>
    cases h
    rfl
  | cons part parts ih =>
    obtain ⟨hpart, hparts⟩ := List.forall_mem_cons.1 hplain
    obtain ⟨⟨f', after⟩, hread, h⟩ := Option.bind_eq_some_iff.1 h
    rw [Part.marks_of_read? hpart hread, ih hparts h, List.flatMap_cons, List.append_assoc]

/-- A year with or without a sign, and plain parts after it. -/
def isPattern : List Part → Bool
  | .signedYear :: parts => parts.all Part.isPlain
  | _ => false

theorem readParts?_signedYear (hdigit : StartsWithDigit cs) (parts : List Part) (f : Fields) :
    readParts? (.signedYear :: parts) f cs = readParts? (.year :: parts) f cs := by
  obtain ⟨c, hc, hdigit⟩ := hdigit
  obtain ⟨rest, rfl⟩ := List.head?_eq_some_iff.1 hc
  rw [readParts?, readParts?, Part.read?, Part.read?, signedYear?_cons hdigit, Option.map_map]
  rfl

/-- **A text that follows a pattern has its marks.** -/
theorem marks_of_follow? (hpattern : isPattern parts) (hdigit : StartsWithDigit cs)
    (h : readParts? parts {} cs = some (f, [])) : marks cs = parts.flatMap Part.marks := by
  unfold isPattern at hpattern
  split at hpattern
  case h_2 => cases hpattern
  case h_1 parts =>
    -- the text starts with a digit, so that the year has no sign that would be one mark more
    rw [readParts?_signedYear hdigit] at h
    have hplain : ∀ part ∈ Part.year :: parts, part.isPlain :=
      List.forall_mem_cons.2 ⟨rfl, List.all_eq_true.1 hpattern⟩
    rw [marks_of_readParts? hplain h]
    exact List.append_nil _

theorem follow?_eq_none (hpattern : isPattern parts) (hdigit : StartsWithDigit cs)
    (hmarks : parts.flatMap Part.marks ≠ marks cs) : follow? parts cs = none := by
  unfold follow?
  split
  case h_1 g hread => exact absurd (marks_of_follow? hpattern hdigit hread).symm hmarks
  case h_2 => rfl

theorem isPattern_of_mem : ∀ parts ∈ patterns, isPattern parts := by decide

/-! ### Which patterns take a literal -/

theorem WrittenTimestamp.isPattern_pattern (joint : Joint) (w : WrittenTimestamp) :
    isPattern (w.pattern joint) := by
  have htime : ∀ separator precision, isPattern (timePattern joint separator precision) := by
    rintro ⟨⟩ ⟨⟩ <;> cases joint <;> rfl
  obtain ⟨day, time⟩ := w
  cases time with
  | none => cases joint <;> rfl
  | some t => exact htime t.separator t.precision

/-- No two patterns have the same marks. -/
theorem WrittenTimestamp.eq_pattern_of_marks (joint : Joint) (w : WrittenTimestamp) :
    ∀ parts ∈ patterns, parts.flatMap Part.marks = (w.pattern joint).flatMap Part.marks →
      parts = w.pattern joint := by
  have htime : ∀ separator precision, ∀ parts ∈ patterns,
      parts.flatMap Part.marks = (timePattern joint separator precision).flatMap Part.marks →
        parts = timePattern joint separator precision := by
    rintro ⟨⟩ ⟨⟩ <;> cases joint <;> decide
  obtain ⟨day, time⟩ := w
  cases time with
  | none =>
    change ∀ parts ∈ patterns, parts.flatMap Part.marks =
      (datePattern joint.char).flatMap Part.marks → parts = datePattern joint.char
    cases joint <;> decide
  | some t => exact htime t.separator t.precision

theorem findSome?_of_mem {α β : Type} {f : α → Option β} {a : α} {l : List α} (ha : a ∈ l)
    (h : ∀ b ∈ l, b ≠ a → f b = none) : l.findSome? f = f a := by
  cases hfirst : l.findSome? f with
  | none => exact (List.findSome?_eq_none_iff.1 hfirst a ha).symm
  | some v =>
    obtain ⟨b, hb, hv⟩ := List.exists_of_findSome?_eq_some hfirst
    by_cases hba : b = a
    case pos => rw [← hba, hv]
    case neg =>
      rw [h b hb hba] at hv
      cases hv

theorem read?_of_padded (htrim : Text.trimmed cs = cs)
    (hs : Padded (String.ofList cs) s) :
    read? s = (internet? cs).or (patterns.findSome? fun parts => follow? parts cs) := by
  have hcs : Text.trimmed s.toList = cs := by rw [hs.trimmed_eq, String.toList_ofList, htrim]
  simp only [read?, hcs]

/-- **A timestamp is read by the pattern that it is written in**, and by no other. -/
theorem WrittenTimestamp.read?_chars (joint : Joint) (w : WrittenTimestamp)
    (hs : Padded (String.ofList (w.chars joint)) s) :
    read? s = if w.pattern joint ∈ patterns then w.fields.timestamp? else none := by
  have hread := w.readParts?_chars joint
  have hmarks : marks (w.chars joint) = (w.pattern joint).flatMap Part.marks :=
    marks_of_follow? (w.isPattern_pattern joint) (w.startsWithDigit joint) hread
  have hothers : ∀ parts ∈ patterns, parts ≠ w.pattern joint →
      follow? parts (w.chars joint) = none := by
    intro parts hparts hne
    refine follow?_eq_none (isPattern_of_mem _ hparts) (w.startsWithDigit joint) fun hsame => ?_
    exact hne (w.eq_pattern_of_marks joint parts hparts (hsame.trans hmarks))
  rw [read?_of_padded (w.trimmed_chars joint) hs, w.internet?_chars, Option.none_or]
  split
  case isTrue h =>
    rw [findSome?_of_mem h hothers, follow?, hread]
  case isFalse h =>
    refine List.findSome?_eq_none_iff.2 fun parts hparts => hothers parts hparts ?_
    rintro rfl
    exact h hparts

theorem marks_twoNumerals (n m : Nat) (hc : (digit? c).isNone) :
    marks (numeral 2 n ++ c :: numeral 2 m) = [c] := by
  rw [marks_append, marks_cons_of_mark hc, marks_numeral, marks_numeral, List.nil_append]

theorem Zone.marks_chars (z : Zone) :
    marks z.chars = ['Z'] ∨ marks z.chars = ['+', ':'] ∨ marks z.chars = ['-', ':'] := by
  cases z with
  | utc => exact .inl rfl
  | ahead hour minute =>
    right; left
    rw [chars, marks_cons_of_mark rfl, marks_twoNumerals _ _ rfl]
  | behind hour minute =>
    right; right
    rw [chars, marks_cons_of_mark rfl, marks_twoNumerals _ _ rfl]

theorem WrittenSeconds.marks_chars (s : WrittenSeconds most) :
    marks s.chars = [] ∨ marks s.chars = ['.'] := by
  rw [chars, marks_append, marks_numeral, List.nil_append]
  obtain ⟨second, fraction⟩ := s
  cases fraction with
  | none => exact .inl rfl
  | some x =>
    right
    rw [fractionChars, marks_cons_of_mark rfl, marks_numeral]

theorem WrittenDay.marks_chars (d : WrittenDay) : marks (d.chars .dash) = ['-', '-'] := by
  rw [chars, Joint.char, marks_append, marks_cons_of_mark rfl, marks_twoNumerals _ _ rfl,
    marks_numeral, List.nil_append]

theorem InternetTimestamp.marks_chars (i : InternetTimestamp) :
    marks i.chars = ['-', '-', 'T', ':', ':'] ++ (marks i.seconds.chars ++ marks i.zone.chars) := by
  rw [chars, marks_append, WrittenDay.marks_chars, marks_cons_of_mark rfl, marks_append,
    marks_numeral, marks_cons_of_mark rfl, marks_append, marks_numeral, marks_cons_of_mark rfl,
    marks_append]
  rfl

/-- No pattern has the marks of an internet timestamp. -/
theorem InternetTimestamp.follow?_chars (i : InternetTimestamp) :
    ∀ parts ∈ patterns, follow? parts i.chars = none := by
  have hother : ∀ parts ∈ patterns, parts.flatMap Part.marks ≠ marks i.chars := by
    rw [i.marks_chars]
    rcases i.seconds.marks_chars with hseconds | hseconds <;>
      rcases i.zone.marks_chars with hzone | hzone | hzone <;>
        rw [hseconds, hzone] <;> decide
  intro parts hparts
  exact follow?_eq_none (isPattern_of_mem _ hparts) i.startsWithDigit (hother parts hparts)

/-- **An internet timestamp is not read by any pattern.** -/
theorem InternetTimestamp.read?_chars (i : InternetTimestamp)
    (hs : Padded (String.ofList i.chars) s) : read? s = internet? i.chars := by
  rw [read?_of_padded i.trimmed_chars hs, List.findSome?_eq_none_iff.2 i.follow?_chars,
    Option.or_none]

/-! ### Literals read back -/

/-- The numbers of a moment. -/
def momentFields (t : Timestamp) : Fields :=
  { year := t.date.year, month := t.date.month, day := t.date.day
    hour := t.time.hour, minute := t.time.minute
    second := t.time.second, nanosecond := t.time.nanosecond }

theorem timestamp?_momentFields (t : Timestamp) : (momentFields t).timestamp? = some t := by
  simp only [Fields.timestamp?, momentFields, Date.ofFields?_self, TimeOfDay.ofFields?_self,
    Option.bind_some, Option.map_some]

/-- The calendar lacks the day with these numbers, or the day lacks the hour or the minute. -/
def Fields.IsImpossible (f : Fields) : Prop :=
  (∀ d : Date, ¬(d.year = f.year ∧ d.month = f.month ∧ d.day = f.day)) ∨ 24 ≤ f.hour ∨
    60 ≤ f.minute

theorem Fields.IsImpossible.timestamp?_eq_none (h : f.IsImpossible) : f.timestamp? = none := by
  cases ht : f.timestamp? with
  | none => rfl
  | some t =>
    obtain ⟨date, hdate, ht⟩ := Option.bind_eq_some_iff.1 ht
    obtain ⟨time, htime, -⟩ := Option.map_eq_some_iff.1 ht
    rcases h with hday | hhour | hminute
    · exact absurd (Date.fields_of_ofFields? hdate) (hday date)
    · exact absurd (TimeOfDay.lt_of_ofFields? htime).1 (Nat.not_lt.2 hhour)
    · exact absurd (TimeOfDay.lt_of_ofFields? htime).2 (Nat.not_lt.2 hminute)

/-- A literal whose day has dashes, or an internet timestamp. -/
inductive WrittenLiteral
  | timestamp (w : WrittenTimestamp)
  | internet (i : InternetTimestamp)

namespace WrittenLiteral

/-- The text of a literal. -/
def text : WrittenLiteral → String
  | timestamp w => String.ofList (w.chars .dash)
  | internet i => String.ofList i.chars

/-- The numbers that are written in a literal. -/
def fields : WrittenLiteral → Fields
  | timestamp w => w.fields
  | internet i => i.fields

end WrittenLiteral

/-- Every moment of a year of four digits is written in some literal. -/
theorem exists_written (t : Timestamp) (hyear : 0 ≤ t.date.year ∧ t.date.year < 10000) :
    ∃ w : WrittenTimestamp, w.fields = momentFields t := by
  have hday : t.date.day < 10 ^ 2 := by
    have := Calendar.monthLength_le t.date.year t.date.month
    have := t.date.day_mem.2
    omega
  have hmonth : t.date.month < 10 ^ 2 := by
    have := t.date.month_mem.2
    omega
  obtain ⟨hhour, hminute, hsecond, hnanosecond⟩ := t.time.inDay
  refine ⟨⟨⟨⟨t.date.year.toNat, by omega⟩, ⟨_, hmonth⟩, ⟨_, hday⟩⟩,
    some ⟨.space, ⟨t.time.hour, by omega⟩, ⟨t.time.minute, by omega⟩,
      some ⟨⟨t.time.second, by omega⟩,
        some ⟨9, ⟨t.time.nanosecond, by omega⟩, by decide, by simp⟩⟩⟩⟩, ?_⟩
  have hvalue : t.time.nanosecond * 10 ^ 9 / 10 ^ 9 = t.time.nanosecond := by omega
  simp only [WrittenTimestamp.fields, WrittenDay.fields, WrittenSeconds.nanosecond,
    WrittenFraction.nanosecond, momentFields, hvalue, Int.toNat_of_nonneg hyear.1]

theorem WrittenTimestamp.pattern_dash_mem (w : WrittenTimestamp) :
    w.pattern .dash ∈ patterns := by
  have htime : ∀ separator precision, timePattern .dash separator precision ∈ patterns := by
    rintro ⟨⟩ ⟨⟩ <;> decide
  obtain ⟨day, time⟩ := w
  cases time with
  | none =>
    change datePattern '-' ∈ patterns
    decide
  | some t => exact htime t.separator t.precision

/-- A timestamp that may also be written with slashes: it has no time of day, or one that comes
after a space and has no fraction of a second. -/
def WrittenTimestamp.AllowsSlashes (w : WrittenTimestamp) : Prop :=
  ∀ t ∈ w.time, t.separator = .space ∧ t.precision ≠ .fraction

theorem WrittenTimestamp.pattern_slash_mem_iff (w : WrittenTimestamp) :
    w.pattern .slash ∈ patterns ↔ w.AllowsSlashes := by
  have htime : ∀ separator precision, timePattern .slash separator precision ∈ patterns ↔
      separator = .space ∧ precision ≠ .fraction := by
    intro separator precision
    cases separator with
    | letter => exact iff_of_false (by cases precision <;> decide) fun h => nomatch h.1
    | space =>
      cases precision with
      | fraction => exact iff_of_false (by decide) fun h => h.2 rfl
      | minute | second => exact iff_of_true (by decide) ⟨rfl, nofun⟩
  obtain ⟨day, time⟩ := w
  cases time with
  | none =>
    change datePattern '/' ∈ patterns ↔ _
    exact iff_of_true (by decide) nofun
  | some t => exact (htime t.separator t.precision).trans (by simp [AllowsSlashes])

/-- **A literal is read as the moment that its numbers name**, whatever white space is around it;
it is turned away if they name a day that the calendar lacks, an hour or a minute that a day
lacks. -/
theorem read?_literal (l : WrittenLiteral) (hs : Padded l.text s) :
    (∀ t : Timestamp, momentFields t = l.fields → read? s = some t) ∧
      (l.fields.IsImpossible → read? s = none) := by
  cases l with
  | timestamp w =>
    have hread : read? s = w.fields.timestamp? := by
      rw [w.read?_chars .dash hs, if_pos w.pattern_dash_mem]
    rw [hread]
    constructor
    · intro t ht
      rw [← timestamp?_momentFields t, ht]
      rfl
    · intro h
      exact h.timestamp?_eq_none
  | internet i =>
    have hread := i.read?_chars hs
    rw [i.internet?_chars] at hread
    rw [hread]
    constructor
    · intro t ht
      have hsecond : i.fields.second ≠ 60 := by
        have hlt := t.time.inDay.2.2.1
        have hsame : t.time.second = i.fields.second := congrArg Fields.second ht
        omega
      rw [if_neg hsecond, ← timestamp?_momentFields t, ht]
      rfl
    · intro h
      -- the reader takes a leap second for the second before it, on the same day
      have hleap :
          ({ i.fields with second := 59, nanosecond := 999999999 } : Fields).IsImpossible := h
      have hnone : i.fields.timestamp? = none := h.timestamp?_eq_none
      rw [hleap.timestamp?_eq_none, hnone, Option.bind_none, ite_self]

/-- A leap day is read with white space around it and an offset behind it; in another year that
day does not exist. -/
theorem read?_literal_of_leap_day :
    read? " 2024-02-29T13:45:10.25+02:00\n" =
        some ⟨⟨2024, 2, 29, by decide, by decide⟩, ⟨13, 45, 10, 250000000, by decide⟩⟩ ∧
      read? "2023-02-29 13:45" = none := by
  let leap : WrittenLiteral := .internet
    { day := ⟨2024, 2, 29⟩, hour := 13, minute := 45
      seconds := ⟨10, some ⟨2, 25, by decide, nofun⟩⟩, zone := .ahead 2 0 }
  let common : WrittenLiteral := .timestamp
    { day := ⟨2023, 2, 29⟩
      time := some { separator := .space, hour := 13, minute := 45, seconds := none } }
  have hleap : Padded leap.text " 2024-02-29T13:45:10.25+02:00\n" :=
    ⟨[' '], ['\n'], by decide, by decide, by decide⟩
  have hcommon : Padded common.text "2023-02-29 13:45" := ⟨[], [], rfl, rfl, by decide⟩
  refine ⟨(read?_literal leap hleap).1 _ (by decide), (read?_literal common hcommon).2 (.inl ?_)⟩
  rintro ⟨year, month, day, hmonth, hday⟩ ⟨rfl, rfl, rfl⟩
  revert hday
  decide

/-- **Which timestamps are read with slashes as with dashes.** -/
theorem read?_slash_eq_iff (w : WrittenTimestamp) {t : Timestamp} (ht : momentFields t = w.fields) :
    read? (String.ofList (w.chars .slash)) = read? (String.ofList (w.chars .dash)) ↔
      w.AllowsSlashes := by
  rw [w.read?_chars .slash (.refl _), w.read?_chars .dash (.refl _), if_pos w.pattern_dash_mem,
    ← ht, timestamp?_momentFields, ← w.pattern_slash_mem_iff]
  split
  case isTrue h => exact iff_of_true rfl h
  case isFalse h => exact iff_of_false nofun h

/-- A time of day to the second may come after slashes and a space. -/
theorem read?_slash_eq_of_second :
    read? "2024/02/29 13:45:10" = read? "2024-02-29 13:45:10" := by
  let w : WrittenTimestamp :=
    { day := ⟨2024, 2, 29⟩
      time := some { separator := .space, hour := 13, minute := 45, seconds := some ⟨10, none⟩ } }
  let t : Timestamp := ⟨⟨2024, 2, 29, by decide, by decide⟩, ⟨13, 45, 10, 0, by decide⟩⟩
  have hfields : momentFields t = w.fields := by decide
  have hslash : String.ofList (w.chars .slash) = "2024/02/29 13:45:10" := by decide
  have hdash : String.ofList (w.chars .dash) = "2024-02-29 13:45:10" := by decide
  have hallows : w.AllowsSlashes := by
    rintro _ ⟨⟩
    exact ⟨rfl, nofun⟩
  rw [← hslash, ← hdash]
  exact (read?_slash_eq_iff w hfields).2 hallows

/-- **A time of day after a `T` is turned away behind slashes**, and so is one with a fraction of
a second. -/
theorem read?_slash_ne_dash :
    read? "2024-02-29T13:45" =
        some ⟨⟨2024, 2, 29, by decide, by decide⟩, ⟨13, 45, 0, 0, by decide⟩⟩ ∧
      read? "2024/02/29T13:45" = none ∧
      read? "2024-02-29 13:45:10.250" =
        some ⟨⟨2024, 2, 29, by decide, by decide⟩, ⟨13, 45, 10, 250000000, by decide⟩⟩ ∧
      read? "2024/02/29 13:45:10.250" = none := by
  decide +kernel

end TimestampLiteral

end QueryEditor
