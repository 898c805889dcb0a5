import QueryEditor.Proofs.Numerals
import QueryEditor.Proofs.ValueLists
import QueryEditor.Server
import Mathlib.Data.List.Forall2
import Mathlib.Data.List.GetD

/-!
# Versions of servers

A version is read from one to four numbers with points between them, with white space around the
whole (`ServerVersion.read?_eq_some_iff`); the numbers that are missing are zero.

* `ServerVersion.read?_render` : what is written of a version is read as this version.
* `ServerVersion.readInPlaces_eq` : **the numbers can be put into four places one by one**: a fifth
  number is refused before it would need a place.
* `ServerVersion.Spelled.read?_append_zero` : a zero may be written in place of a missing number.
* `Settings.columnComparison_of_le` : a later server can compare columns if an earlier one can.
* `ServerVersion.read_laws` : the laws of versions in one place.
-/

namespace QueryEditor

namespace ServerVersion

open Numeral (Spells)

variable {text : String} {pieces : List String} {numbers : List UInt32} {v w : ServerVersion}

/-- A text spells a version in these pieces: without the white space around it, the text is the
pieces with points between them, each piece spells a number, and the missing numbers are zero. -/
structure Spelled (text : String) (pieces : List String) (v : ServerVersion) : Prop where
  trim_eq : Text.trim text = ".".intercalate pieces
  ne_nil : pieces ≠ []
  length_le : pieces.length ≤ 4
  spells : List.Forall₂ Spells pieces (v.parts.take pieces.length)
  missing_eq_zero : ∀ n ∈ v.parts.drop pieces.length, n = 0

/-- The first number in which two versions differ is smaller in this one. -/
def Before (v w : ServerVersion) : Prop :=
  v.major < w.major ∨ v.major = w.major ∧
    (v.minor < w.minor ∨ v.minor = w.minor ∧
      (v.build < w.build ∨ v.build = w.build ∧ v.revision < w.revision))

/-! ### Four numbers -/

/-- The version whose numbers stand in the places. -/
def ofPlaces (places : Vector UInt32 4) : ServerVersion :=
  ⟨places[0], places[1], places[2], places[3]⟩

/-- The places after these numbers have been put into them. -/
def placesOf (numbers : List UInt32) : Vector UInt32 4 := .ofFn fun i => numbers.getD i 0

theorem ofParts?_eq_some_iff :
    ofParts? numbers = some v ↔ numbers ≠ [] ∧ numbers.length ≤ 4 ∧
      v.parts.take numbers.length = numbers ∧ ∀ n ∈ v.parts.drop numbers.length, n = 0 := by
  obtain ⟨major, minor, build, revision⟩ := v
  rcases numbers with _ | ⟨a, _ | ⟨b, _ | ⟨c, _ | ⟨d, _ | ⟨e, rest⟩⟩⟩⟩⟩
  all_goals simp [ofParts?, parts]
  all_goals grind

theorem ofParts?_eq_ofPlaces (hne : numbers ≠ []) (h : numbers.length ≤ 4) :
    ofParts? numbers = some (ofPlaces (placesOf numbers)) := by
  rcases numbers with _ | ⟨a, _ | ⟨b, _ | ⟨c, _ | ⟨d, _ | ⟨e, rest⟩⟩⟩⟩⟩
  case nil => exact absurd rfl hne
  case cons.cons.cons.cons.cons =>
    simp only [List.length_cons] at h
    omega
  all_goals rfl

theorem ofParts?_eq_none (h : 4 < numbers.length) : ofParts? numbers = none := by
  refine Option.eq_none_iff_forall_ne_some.2 fun v hv => ?_
  have hle := (ofParts?_eq_some_iff.1 hv).2.1
  omega

/-! ### Pieces of a text -/

theorem exists_forall₂_spells_iff :
    (∃ numbers, List.Forall₂ Spells pieces numbers) ↔ ∀ piece ∈ pieces, ∃ n, Spells piece n := by
  constructor
  · rintro ⟨numbers, h⟩
    induction h with
    | nil => exact List.forall_mem_nil _
    | cons hfirst _ ih => exact List.forall_mem_cons.2 ⟨⟨_, hfirst⟩, ih⟩
  · intro h
    induction pieces with
    | nil => exact ⟨[], .nil⟩
    | cons piece pieces ih =>
      obtain ⟨⟨n, hn⟩, hrest⟩ := List.forall_mem_cons.1 h
      obtain ⟨ns, hns⟩ := ih hrest
      exact ⟨n :: ns, .cons hn hns⟩

theorem mapM_uint32?_eq_some_iff :
    (pieces.map String.toList).mapM Numeral.uint32? = some numbers ↔
      List.Forall₂ Spells pieces numbers := by
  induction pieces generalizing numbers with
  | nil => simp [eq_comm]
  | cons piece pieces ih =>
    rw [List.map_cons, List.mapM_cons, Option.bind_eq_bind, Option.bind_eq_some_iff]
    constructor
    · rintro ⟨n, hn, hrest⟩
      obtain ⟨ns, hns, heq⟩ := Option.bind_eq_some_iff.1 hrest
      obtain rfl := Option.some.inj heq
      exact .cons (Numeral.uint32?_eq_some_iff_spells.1 hn) (ih.1 hns)
    · rintro (_ | ⟨hn, hns⟩)
      exact ⟨_, Numeral.uint32?_eq_some_iff_spells.2 hn, by rw [ih.2 hns]; rfl⟩

/-- Pieces that spell numbers are found again at the points. -/
theorem splitOn_intercalate (hne : pieces ≠ []) (h : List.Forall₂ Spells pieces numbers) :
    (".".intercalate pieces).toList.splitOn '.' = pieces.map String.toList := by
  refine Text.splitOn_intercalate rfl hne fun piece hpiece => ?_
  obtain ⟨n, hn⟩ := exists_forall₂_spells_iff.1 ⟨numbers, h⟩ piece hpiece
  exact hn.not_mem (by decide) (by decide)

theorem intercalate_concat (hne : pieces ≠ []) (piece : String) :
    ".".intercalate (pieces ++ [piece]) = ".".intercalate pieces ++ "." ++ piece := by
  induction pieces with
  | nil => exact absurd rfl hne
  | cons first pieces ih =>
    rcases pieces with _ | ⟨next, pieces⟩
    · rfl
    · rw [List.cons_append, List.cons_append, String.intercalate_cons_cons,
        ← List.cons_append, ih (List.cons_ne_nil _ _), String.intercalate_cons_cons]
      simp only [String.append_assoc]

/-- There is no white space in numbers with points between them. -/
theorem trim_intercalate (h : List.Forall₂ Spells pieces numbers) :
    Text.trim (".".intercalate pieces) = ".".intercalate pieces := by
  have hblank : ∀ c ∈ (".".intercalate pieces).toList, Text.isBlank c = false := by
    induction h with
    | nil => simp
    | @cons piece n pieces numbers hpiece hpieces ih =>
      rcases pieces with _ | ⟨next, pieces⟩
      · rw [String.intercalate_singleton]
        exact hpiece.isBlank_eq_false
      · rw [String.intercalate_cons_cons, String.toList_append, String.toList_append]
        simp only [List.forall_mem_append]
        exact ⟨⟨hpiece.isBlank_eq_false, List.forall_mem_singleton.2 rfl⟩, ih⟩
  rw [Text.trim, Text.trimmed_of_no_blank hblank, String.ofList_toList]

/-! ### What is read as a version -/

/-- **A version is read from one to four numbers**, and from nothing else. -/
theorem read?_eq_some_iff : read? text = some v ↔ ∃ pieces, Spelled text pieces v := by
  rw [read?, Option.bind_eq_some_iff]
  constructor
  · rintro ⟨numbers, hnumbers, hparts⟩
    obtain ⟨-, hle, htake, hdrop⟩ := ofParts?_eq_some_iff.1 hparts
    set pieces := ((Text.trimmed text.toList).splitOn '.').map String.ofList with hpieces
    have hsplit : (Text.trimmed text.toList).splitOn '.' = pieces.map String.toList := by
      rw [hpieces, List.map_map]
      simp
    rw [hsplit] at hnumbers
    have hspells := mapM_uint32?_eq_some_iff.1 hnumbers
    refine ⟨pieces, ?_, ?_, ?_, ?_, ?_⟩
    · rw [hpieces, Text.intercalate_splitOn rfl, Text.trim]
    · simp [hpieces, List.splitOn_ne_nil]
    · rwa [hspells.length_eq]
    · rwa [hspells.length_eq, htake]
    · rwa [hspells.length_eq]
  · rintro ⟨pieces, h⟩
    have hsplit : (Text.trimmed text.toList).splitOn '.' = pieces.map String.toList := by
      rw [← splitOn_intercalate h.ne_nil h.spells, ← h.trim_eq, Text.trim, String.toList_ofList]
    have hlength : pieces.length = (v.parts.take pieces.length).length := h.spells.length_eq
    refine ⟨v.parts.take pieces.length, ?_, ?_⟩
    · rw [hsplit]
      exact mapM_uint32?_eq_some_iff.2 h.spells
    · refine ofParts?_eq_some_iff.2 ⟨?_, ?_, ?_, ?_⟩
      · rw [ne_eq, ← List.length_eq_zero_iff, ← hlength, List.length_eq_zero_iff]
        exact h.ne_nil
      · exact hlength ▸ h.length_le
      · rw [← hlength]
      · rw [← hlength]
        exact h.missing_eq_zero

theorem Spelled.read?_eq (h : Spelled text pieces v) : read? text = some v :=
  read?_eq_some_iff.2 ⟨pieces, h⟩

/-- **Which texts are versions.** -/
theorem isSome_read?_iff :
    (read? text).isSome ↔ ∃ pieces : List String, Text.trim text = ".".intercalate pieces ∧
      pieces ≠ [] ∧ pieces.length ≤ 4 ∧ ∀ piece ∈ pieces, ∃ n, Spells piece n := by
  rw [Option.isSome_iff_exists]
  constructor
  · rintro ⟨v, hv⟩
    obtain ⟨pieces, h⟩ := read?_eq_some_iff.1 hv
    exact ⟨pieces, h.trim_eq, h.ne_nil, h.length_le, exists_forall₂_spells_iff.1 ⟨_, h.spells⟩⟩
  · rintro ⟨pieces, htrim, hne, hle, hpieces⟩
    obtain ⟨numbers, hnumbers⟩ := exists_forall₂_spells_iff.2 hpieces
    have hlength : pieces.length = numbers.length := hnumbers.length_eq
    have hne' : numbers ≠ [] := by
      rintro rfl
      exact hne (List.length_eq_zero_iff.1 hlength)
    have hparts := ofParts?_eq_ofPlaces hne' (hlength ▸ hle)
    obtain ⟨-, -, htake, hdrop⟩ := ofParts?_eq_some_iff.1 hparts
    have h : Spelled text pieces (ofPlaces (placesOf numbers)) := by
      refine ⟨htrim, hne, hle, ?_, ?_⟩
      · rwa [hlength, htake]
      · rwa [hlength]
    exact ⟨_, h.read?_eq⟩

theorem spelled_render (v : ServerVersion) :
    Spelled v.render (v.parts.map Numeral.ofUInt32) v := by
  have hspells : List.Forall₂ Spells (v.parts.map Numeral.ofUInt32) v.parts := by
    rw [List.forall₂_map_left_iff, List.forall₂_same]
    exact fun n _ => Numeral.uint32?_eq_some_iff_spells.1 (Numeral.uint32?_ofUInt32 n)
  refine ⟨?_, ?_, ?_, ?_, ?_⟩
  · rw [render, trim_intercalate hspells]
  · simp [parts]
  · simp [parts]
  · exact hspells
  · simp [parts]

/-- **What is written of a version is read as this version.** -/
theorem read?_render (v : ServerVersion) : read? v.render = some v := (spelled_render v).read?_eq

/-- **A zero may be written in place of a missing number.** -/
theorem Spelled.read?_append_zero (h : Spelled text pieces v) (hlt : pieces.length < 4) :
    read? (Text.trim text ++ ".0") = some v := by
  have hparts : pieces.length < v.parts.length := hlt
  have hzero : v.parts[pieces.length] = 0 := by
    refine h.missing_eq_zero _ ?_
    rw [List.drop_eq_getElem_cons hparts]
    exact List.mem_cons_self
  have hspells : List.Forall₂ Spells (pieces ++ ["0"])
      (v.parts.take (pieces ++ ["0"]).length) := by
    rw [List.length_append, List.length_singleton, List.take_succ_eq_append_getElem hparts, hzero]
    refine List.rel_append h.spells (.cons ?_ .nil)
    exact ⟨['0'], .inl rfl, List.cons_ne_nil _ _, List.forall_mem_singleton.2 rfl, rfl⟩
  have htext : Text.trim text ++ ".0" = ".".intercalate (pieces ++ ["0"]) := by
    rw [intercalate_concat h.ne_nil, h.trim_eq, String.append_assoc]
    rfl
  have hmore : Spelled (Text.trim text ++ ".0") (pieces ++ ["0"]) v := by
    refine ⟨?_, by simp, ?_, hspells, fun n hn => ?_⟩
    · rw [htext, trim_intercalate hspells]
    · rw [List.length_append, List.length_singleton]
      omega
    · rw [List.length_append, List.length_singleton, ← List.drop_drop] at hn
      exact h.missing_eq_zero n (List.mem_of_mem_drop hn)
  exact hmore.read?_eq

/-! ### Number by number -/

/-- Why the filling of the places ends early. -/
inductive Stop where
  /-- The text is no version. -/
  | refused
  /-- There is no place for the next number. -/
  | outside
  deriving DecidableEq

/-- Puts a number into a place, if there is such a place. -/
def put (places : Vector UInt32 4) (next : Nat) (n : UInt32) : Except Stop (Vector UInt32 4) :=
  if h : next < 4 then .ok (places.set next n) else .error .outside

/-- Puts the numbers of the pieces into the places from `next` on. -/
def fill (places : Vector UInt32 4) (next : Nat) :
    List (List Char) → Except Stop (Vector UInt32 4)
  | [] => .ok places
  | piece :: pieces =>
    if next = 4 then .error .refused
    else match Numeral.uint32? piece with
      | none => .error .refused
      | some n => (put places next n).bind fun places => fill places (next + 1) pieces

/-- Reads a version number by number. -/
def readInPlaces (text : String) : Except Stop ServerVersion :=
  (fill (.replicate 4 0) 0 ((Text.trimmed text.toList).splitOn '.')).map ofPlaces

theorem put_placesOf (h : numbers.length < 4) (n : UInt32) :
    put (placesOf numbers) numbers.length n = .ok (placesOf (numbers ++ [n])) := by
  rw [put, dif_pos h]
  refine congrArg Except.ok (Vector.ext fun i hi => ?_)
  rw [Vector.getElem_set, placesOf, placesOf, Vector.getElem_ofFn, Vector.getElem_ofFn]
  show (if numbers.length = i then n else numbers.getD i 0) = (numbers ++ [n]).getD i 0
  rcases Nat.lt_trichotomy i numbers.length with hlt | rfl | hgt
  · rw [if_neg (Nat.ne_of_gt hlt), List.getD_append _ _ _ _ hlt]
  · simp
  · rw [if_neg (Nat.ne_of_lt hgt), List.getD_eq_default _ _ (Nat.le_of_lt hgt),
      List.getD_eq_default]
    rw [List.length_append, List.length_singleton]
    omega

/-- **No number is put outside the places**: where the first places are filled, the rest is filled
or refused as it is read. -/
theorem fill_placesOf (numbers : List UInt32) (pieces : List (List Char)) (h : numbers.length ≤ 4)
    (hne : numbers ≠ [] ∨ pieces ≠ []) :
    (fill (placesOf numbers) numbers.length pieces).map ofPlaces =
      ((pieces.mapM Numeral.uint32?).bind fun more => ofParts? (numbers ++ more)).elim
        (.error .refused) .ok := by
  induction pieces generalizing numbers with
  | nil =>
    have hnumbers : numbers ≠ [] := hne.resolve_right fun h => h rfl
    rw [fill, List.mapM_nil]
    show _ = (ofParts? (numbers ++ [])).elim _ _
    rw [List.append_nil, ofParts?_eq_ofPlaces hnumbers h]
    rfl
  | cons piece pieces ih =>
    rw [fill, List.mapM_cons]
    split
    case isTrue hfull =>
      -- the places are filled, and one number more is too many
      cases Numeral.uint32? piece with
      | none => rfl
      | some n =>
        cases pieces.mapM Numeral.uint32? with
        | none => rfl
        | some more =>
          show _ = (ofParts? (numbers ++ n :: more)).elim _ _
          rw [ofParts?_eq_none (by rw [List.length_append, List.length_cons]; omega)]
          rfl
    case isFalse hroom =>
      cases Numeral.uint32? piece with
      | none => rfl
      | some n =>
        have hlt : numbers.length < 4 := Nat.lt_of_le_of_ne h hroom
        have hlength : (numbers ++ [n]).length = numbers.length + 1 := List.length_append
        have hrest := @ih (numbers ++ [n]) (hlength ▸ hlt) (.inl (by simp))
        rw [hlength] at hrest
        show ((put _ _ n).bind _).map _ = _
        rw [put_placesOf hlt]
        refine hrest.trans ?_
        cases pieces.mapM Numeral.uint32? with
        | none => rfl
        | some more =>
          show (ofParts? ((numbers ++ [n]) ++ more)).elim _ _ =
            (ofParts? (numbers ++ n :: more)).elim _ _
          rw [List.append_assoc, List.singleton_append]

/-- **A version can be read number by number**: a text is refused as `read?` refuses it, and all the
numbers find their places. -/
theorem readInPlaces_eq (text : String) :
    readInPlaces text = (read? text).elim (.error .refused) .ok := by
  exact fill_placesOf [] _ (Nat.zero_le 4) (.inr (List.splitOn_ne_nil _ _))

theorem readInPlaces_ne_outside (text : String) : readInPlaces text ≠ .error .outside := by
  rw [readInPlaces_eq]
  cases read? text with
  | none => exact fun h => nomatch h
  | some v => exact fun h => nomatch h

/-! ### Earlier and later versions -/

theorem before_iff_lt_parts : v.Before w ↔ v.parts < w.parts := by
  simp [Before, parts, List.cons_lt_cons_iff]

theorem Before.le (h : v.Before w) : v ≤ w := List.le_of_lt (before_iff_lt_parts.1 h)

end ServerVersion

variable {v w : ServerVersion}

/-- **A later server can compare columns if an earlier one can.** -/
theorem Settings.columnComparison_of_le {useLookup useLookup' : Bool} (hle : v ≤ w)
    (h : (forServer v useLookup).columnComparison = true) :
    (forServer w useLookup').columnComparison = true := by
  have hv : ServerVersion.firstToCompareColumns ≤ v := of_decide_eq_true h
  exact decide_eq_true (ServerVersion.le_trans hv hle)

namespace ServerVersion

/-- **The laws of versions.**  What is written of a version is read as this version.  A version is
read from one to four numbers with points between them and from nothing else, missing numbers are
zero, and a zero may be written for one of them.  To read it number by number, four places are
enough.  A server can compare columns if one with an earlier version can. -/
theorem read_laws :
    (∀ v : ServerVersion, read? v.render = some v) ∧
      (∀ text v, read? text = some v ↔ ∃ pieces, Spelled text pieces v) ∧
      (∀ text, (read? text).isSome ↔ ∃ pieces : List String,
        Text.trim text = ".".intercalate pieces ∧ pieces ≠ [] ∧ pieces.length ≤ 4 ∧
          ∀ piece ∈ pieces, ∃ n, Numeral.Spells piece n) ∧
      (∀ text, readInPlaces text ≠ .error .outside ∧
        readInPlaces text = (read? text).elim (.error .refused) .ok) ∧
      (∀ text pieces v, Spelled text pieces v → pieces.length < 4 →
        read? (Text.trim text ++ ".0") = some v) ∧
      ∀ (v w : ServerVersion) (useLookup useLookup' : Bool), v.Before w →
        (Settings.forServer v useLookup).columnComparison = true →
        (Settings.forServer w useLookup').columnComparison = true :=
  ⟨read?_render, fun _ _ => read?_eq_some_iff, fun _ => isSome_read?_iff,
    fun text => ⟨readInPlaces_ne_outside text, readInPlaces_eq text⟩,
    fun _ _ _ h hlt => h.read?_append_zero hlt,
    fun _ _ _ _ h hv => Settings.columnComparison_of_le h.le hv⟩

/-- Two numbers are read with a plus sign and white space, a zero is appended to them, and the next
minor version can compare columns as the first one that can. -/
theorem read_laws_of_two_numbers :
    Spelled " 9.+1 " ["9", "+1"] ⟨9, 1, 0, 0⟩ ∧ read? " 9.+1 " = some ⟨9, 1, 0, 0⟩ ∧
      read? "9.+1.0" = some ⟨9, 1, 0, 0⟩ ∧ Before ⟨9, 1, 0, 19562⟩ ⟨9, 2, 0, 0⟩ ∧
      (Settings.forServer ⟨9, 2, 0, 0⟩ true).columnComparison = true := by
  obtain ⟨-, hread, -, -, hzero, hlater⟩ := read_laws
  have hspelled : Spelled " 9.+1 " ["9", "+1"] ⟨9, 1, 0, 0⟩ := by
    refine ⟨by decide, List.cons_ne_nil _ _, by decide, ?_, by simp [parts]⟩
    exact .cons ⟨['9'], .inl rfl, List.cons_ne_nil _ _, List.forall_mem_singleton.2 rfl, rfl⟩ <|
      .cons ⟨['1'], .inr rfl, List.cons_ne_nil _ _, List.forall_mem_singleton.2 rfl, rfl⟩ .nil
  have hbefore : Before ⟨9, 1, 0, 19562⟩ ⟨9, 2, 0, 0⟩ := .inr ⟨rfl, .inl (by decide)⟩
  have hfirst : (Settings.forServer ⟨9, 1, 0, 19562⟩ false).columnComparison = true := by decide
  have htrim : Text.trim " 9.+1 " ++ ".0" = "9.+1.0" := by decide
  have hfour := hzero _ _ _ hspelled (by decide)
  rw [htrim] at hfour
  exact ⟨hspelled, (hread _ _).2 ⟨_, hspelled⟩, hfour, hbefore,
    hlater _ _ false true hbefore hfirst⟩

end ServerVersion

end QueryEditor
