import QueryEditor.Console.Layout
import QueryEditor.Proofs.Numerals
import QueryEditor.Proofs.PaddedText

/-!
# Lists of widths

A list of widths is cut into pieces at its commas.  A piece is an entry if there is an equals sign
in it and what follows the first one spells a number; blank pieces are passed over, and the first
piece that is neither ends the reading.

* `Console.readWidth_eq_ok_iff`, `Console.readWidth_eq_error_iff` : what is read of one piece, and
  why it is refused.
* `Console.readPieces_eq_error_iff` : **the error is that of the first piece that is refused.**
* `Console.readWidths_eq_ok_iff` : **what is read of a list are the pairs that it lists**, with any
  white space around them and any blank pieces between them.
* `Console.readWidths_laws` : the laws of such lists in one place.
-/

namespace QueryEditor

namespace Console

open Numeral (Spells)

/-! ### Pieces and entries -/

/-- The pieces between the commas of a text. -/
structure CutsInto (text : String) (pieces : List String) : Prop where
  comma_not_mem : ∀ piece ∈ pieces, ',' ∉ piece.toList
  eq_intercalate : text = ",".intercalate pieces

/-- A name that can stand in a list of widths. -/
structure IsWidthName (name : String) : Prop where
  comma_not_mem : ',' ∉ name.toList
  equals_not_mem : '=' ∉ name.toList
  trim_eq : Text.trim name = name

/-- A piece is an entry for a pair: in front of its first equals sign stands the name and after it
something that spells the width, both with white space around them. -/
def IsEntry (piece : String) (pair : String × UInt32) : Prop :=
  ∃ name width, piece = name ++ "=" ++ width ∧ '=' ∉ name.toList ∧
    pair.1 = Text.trim name ∧ Spells (Text.trim width) pair.2

/-- A piece has a width: there is an equals sign, and the first one is followed by a number. -/
def HasWidth (piece : String) : Prop :=
  ∃ name width, piece = name ++ "=" ++ width ∧ '=' ∉ name.toList ∧ ∃ n, Spells (Text.trim width) n

/-- A piece is refused, and what is said about it. -/
inductive Refused : String → WidthError → Prop
  /-- There is no equals sign; the piece is named without the white space around it. -/
  | noWidth {piece : String} (h : '=' ∉ piece.toList) : Refused piece (.noWidth (Text.trim piece))
  /-- What follows the first equals sign spells no number; it is quoted as it stands, up to the
  white space at the end of the piece. -/
  | invalidWidth {name width : String} (hname : '=' ∉ name.toList)
    (hwidth : ∀ n, ¬Spells (Text.trim width) n) : Refused (name ++ "=" ++ width)
      (.invalidWidth (Text.trim name) (String.ofList (Text.trimRight width.toList)))

/-- A piece spells a pair: it is the name, an equals sign and a numeral, with white space anywhere
around the two. -/
def SpellsPair (piece : String) (pair : String × UInt32) : Prop :=
  ∃ numeral name width, Spells numeral pair.2 ∧ Text.Padded pair.1 name ∧
    Text.Padded numeral width ∧ piece = name ++ "=" ++ width

/-- Pieces spell pairs in order; any number of blank pieces may stand between them. -/
inductive SpellsPairs : List String → List (String × UInt32) → Prop
  | nil : SpellsPairs [] []
  | blank {piece pieces pairs} (h : Text.blank piece = true) (hrest : SpellsPairs pieces pairs) :
    SpellsPairs (piece :: pieces) pairs
  | entry {piece pieces pair pairs} (h : SpellsPair piece pair)
    (hrest : SpellsPairs pieces pairs) : SpellsPairs (piece :: pieces) (pair :: pairs)

/-- A text lists pairs: it is made of pieces that spell them, with commas between the pieces. -/
def ListsWidths (text : String) (pairs : List (String × UInt32)) : Prop :=
  ∃ pieces, SpellsPairs pieces pairs ∧ text = ",".intercalate pieces

/-- The plain form of a pair. -/
def plainWidth (pair : String × UInt32) : String := pair.1 ++ "=" ++ Numeral.ofUInt32 pair.2

variable {text piece name width : String} {pieces : List String} {pair : String × UInt32}
  {pairs : List (String × UInt32)} {e : WidthError}

/-- Every text is cut into pieces at its commas. -/
theorem exists_cutsInto (text : String) : ∃ pieces, CutsInto text pieces := by
  refine ⟨(text.toList.splitOn ',').map String.ofList, List.forall_mem_map.2 fun piece hpiece => ?_,
    ?_⟩
  · rw [String.toList_ofList]
    exact fun hcomma => (ValueList.exists_piece_iff.1 ⟨piece, hpiece, hcomma⟩).2 rfl
  · rw [Text.intercalate_splitOn rfl, String.ofList_toList]

theorem hasWidth_iff : HasWidth piece ↔ ∃ pair, IsEntry piece pair := by
  constructor
  · rintro ⟨name, width, heq, hname, n, hspells⟩
    exact ⟨(Text.trim name, n), name, width, heq, hname, rfl, hspells⟩
  · rintro ⟨⟨_, n⟩, name, width, heq, hname, -, hspells⟩
    exact ⟨name, width, heq, hname, n, hspells⟩

/-- A piece with an equals sign is not blank. -/
theorem blank_append_eq_false (name width : String) :
    Text.blank (name ++ "=" ++ width) = false := by
  rw [← Bool.not_eq_true]
  intro hblank
  have hequals : Text.isBlank '=' = false := by decide
  exact Text.not_mem_of_all hblank hequals (by simp)

theorem SpellsPair.blank_eq_false (h : SpellsPair piece pair) : Text.blank piece = false := by
  obtain ⟨-, name, width, -, -, -, rfl⟩ := h
  exact blank_append_eq_false name width

theorem IsEntry.blank_eq_false (h : IsEntry piece pair) : Text.blank piece = false := by
  obtain ⟨name, width, rfl, -⟩ := h
  exact blank_append_eq_false name width

theorem spellsPairs_cons_of_blank (hblank : Text.blank piece = true) :
    SpellsPairs (piece :: pieces) pairs ↔ SpellsPairs pieces pairs := by
  constructor
  · rintro (_ | ⟨-, hrest⟩ | ⟨hpair, -⟩)
    · exact hrest
    · rw [hpair.blank_eq_false] at hblank
      cases hblank
  · exact .blank hblank

theorem exists_of_spellsPairs_cons (hblank : Text.blank piece = false)
    (h : SpellsPairs (piece :: pieces) pairs) :
    ∃ pair rest, pairs = pair :: rest ∧ SpellsPair piece pair ∧ SpellsPairs pieces rest := by
  rcases h with _ | ⟨hblank', -⟩ | ⟨hpair, hrest⟩
  · cases hblank.symm.trans hblank'
  · exact ⟨_, _, rfl, hpair, hrest⟩

/-- **Where there is no comma, the entries for a pair are the pieces that spell it**, and its name
can stand in a list. -/
theorem isEntry_iff (hcomma : ',' ∉ piece.toList) :
    IsEntry piece pair ↔ SpellsPair piece pair ∧ IsWidthName pair.1 := by
  constructor
  · rintro ⟨name, width, rfl, hname, hfirst, hspells⟩
    have hpadded : Text.Padded pair.1 name := hfirst ▸ Text.padded_trim name
    refine ⟨⟨_, name, width, hspells, hpadded, Text.padded_trim width, rfl⟩, ?_, ?_, ?_⟩
    · rw [← hpadded.mem_iff (by decide)]
      exact fun hmem => hcomma (by simp [hmem])
    · rwa [← hpadded.mem_iff (by decide)]
    · rw [hfirst, Text.trim_trim]
  · rintro ⟨⟨numeral, name, width, hspells, hname, hwidth, rfl⟩, hproper⟩
    have htrim : Text.trim width = numeral := by
      rw [hwidth.trim_eq, Text.trim, Text.trimmed_of_no_blank hspells.isBlank_eq_false,
        String.ofList_toList]
    refine ⟨name, width, rfl, ?_, ?_, htrim ▸ hspells⟩
    · rw [hname.mem_iff (by decide)]
      exact hproper.equals_not_mem
    · rw [hname.trim_eq, hproper.trim_eq]

/-- No comma is in a piece that spells a pair whose name can stand in a list. -/
theorem SpellsPair.comma_not_mem (h : SpellsPair piece pair) (hname : IsWidthName pair.1) :
    ',' ∉ piece.toList := by
  obtain ⟨numeral, name, width, hspells, hpadded, hwidth, rfl⟩ := h
  have hnumeral : ',' ∉ numeral.toList := hspells.not_mem (by decide) (by decide)
  simp [hpadded.mem_iff, hwidth.mem_iff, hname.comma_not_mem, hnumeral, Text.isBlank]

theorem SpellsPairs.comma_not_mem (h : SpellsPairs pieces pairs)
    (hnames : ∀ pair ∈ pairs, IsWidthName pair.1) : ∀ piece ∈ pieces, ',' ∉ piece.toList := by
  induction h with
  | nil => exact List.forall_mem_nil _
  | blank hblank _ ih =>
    exact List.forall_mem_cons.2 ⟨Text.not_mem_of_all hblank (by decide), ih hnames⟩
  | entry hentry _ ih =>
    obtain ⟨hname, hrest⟩ := List.forall_mem_cons.1 hnames
    exact List.forall_mem_cons.2 ⟨hentry.comma_not_mem hname, ih hrest⟩

/-- The plain form of pairs lists them. -/
theorem listsWidths_plain (pairs : List (String × UInt32)) :
    ListsWidths (",".intercalate (pairs.map plainWidth)) pairs := by
  refine ⟨_, ?_, rfl⟩
  induction pairs with
  | nil => exact .nil
  | cons pair pairs ih =>
    have hspells := Numeral.uint32?_eq_some_iff_spells.1 (Numeral.uint32?_ofUInt32 pair.2)
    exact .entry ⟨_, pair.1, _, hspells, .refl _, .refl _, rfl⟩ ih

/-! ### One piece -/

/-- What stands around the first equals sign of a piece is read on its own. -/
theorem readWidth_append (hname : '=' ∉ name.toList) (width : String) :
    readWidth (Text.trimmed (name ++ "=" ++ width).toList) =
      (Numeral.uint32? (Text.trim width).toList).elim
        (.error (.invalidWidth (Text.trim name) (String.ofList (Text.trimRight width.toList))))
        fun n => .ok (Text.trim name, n) := by
  have hlist : (name ++ "=" ++ width).toList = name.toList ++ '=' :: width.toList := by simp
  have hleft : '=' ∉ Text.trimLeft name.toList :=
    fun hmem => hname ((List.dropWhile_sublist _).mem hmem)
  rw [hlist, Text.trimmed_append_cons (by decide), readWidth, Text.cut_append hleft]
  dsimp only
  rw [Text.trimmed_trimLeft, Text.trimmed_trimRight, Text.trim, Text.trim, String.toList_ofList]
  cases Numeral.uint32? (Text.trimmed width.toList) with
  | some n => rfl
  | none => rfl

theorem readWidth_of_not_mem (h : '=' ∉ piece.toList) :
    readWidth (Text.trimmed piece.toList) = .error (.noWidth (Text.trim piece)) := by
  have hmem : '=' ∉ (Text.trim piece).toList := by
    rwa [← (Text.padded_trim piece).mem_iff (by decide)]
  rw [Text.trim, String.toList_ofList] at hmem
  rw [readWidth, Text.cut_eq_none_iff.2 hmem]
  rfl

/-- **A piece is an entry or it is refused**, and it is read accordingly. -/
theorem readWidth_cases (piece : String) :
    (∃ pair, IsEntry piece pair ∧ readWidth (Text.trimmed piece.toList) = .ok pair) ∨
      ∃ e, Refused piece e ∧ readWidth (Text.trimmed piece.toList) = .error e := by
  by_cases hmem : '=' ∈ piece.toList
  · obtain ⟨before, after, heq, hbefore⟩ := List.eq_append_cons_of_mem hmem
    obtain ⟨name, rfl⟩ : ∃ name : String, name.toList = before := ⟨_, String.toList_ofList⟩
    obtain ⟨width, rfl⟩ : ∃ width : String, width.toList = after := ⟨_, String.toList_ofList⟩
    obtain rfl : piece = name ++ "=" ++ width := String.toList_injective (by simpa using heq)
    rw [readWidth_append hbefore]
    cases hread : Numeral.uint32? (Text.trim width).toList with
    | some n =>
      have hspells := Numeral.uint32?_eq_some_iff_spells.1 hread
      exact .inl ⟨_, ⟨name, width, rfl, hbefore, rfl, hspells⟩, rfl⟩
    | none =>
      refine .inr ⟨_, .invalidWidth hbefore fun n hspells => ?_, rfl⟩
      rw [Numeral.uint32?_eq_some_iff_spells.2 hspells] at hread
      cases hread
  · exact .inr ⟨_, .noWidth hmem, readWidth_of_not_mem hmem⟩

/-- **What is read of a piece.** -/
theorem readWidth_eq_ok_iff :
    readWidth (Text.trimmed piece.toList) = .ok pair ↔ IsEntry piece pair := by
  constructor
  · intro h
    rcases readWidth_cases piece with ⟨pair', hentry, hread⟩ | ⟨e, -, hread⟩
    · obtain rfl := Except.ok.inj (h.symm.trans hread)
      exact hentry
    · cases h.symm.trans hread
  · rintro ⟨name, width, rfl, hname, hfirst, hspells⟩
    rw [readWidth_append hname, Numeral.uint32?_eq_some_iff_spells.2 hspells, Option.elim_some,
      ← hfirst]

/-- **Why a piece is refused.** -/
theorem readWidth_eq_error_iff :
    readWidth (Text.trimmed piece.toList) = .error e ↔ Refused piece e := by
  constructor
  · intro h
    rcases readWidth_cases piece with ⟨pair, -, hread⟩ | ⟨e', hrefused, hread⟩
    · cases h.symm.trans hread
    · obtain rfl := Except.error.inj (h.symm.trans hread)
      exact hrefused
  · intro h
    cases h with
    | noWidth hmem => exact readWidth_of_not_mem hmem
    | invalidWidth hname hwidth =>
      rw [readWidth_append hname]
      cases hread : Numeral.uint32? (Text.trim _).toList with
      | some n => exact absurd (Numeral.uint32?_eq_some_iff_spells.1 hread) (hwidth n)
      | none => rfl

/-! ### Piece by piece -/

/-- Reads the widths of pieces. -/
def readPieces (pieces : List String) : Except WidthError (List (String × UInt32)) :=
  ((pieces.map fun piece => Text.trimmed piece.toList).filter (· ≠ [])).mapM readWidth

theorem readWidths_eq_readPieces (h : CutsInto text pieces) :
    readWidths text = readPieces pieces := by
  obtain ⟨hcomma, rfl⟩ := h
  rcases pieces with _ | ⟨piece, pieces⟩
  · rfl
  · rw [readWidths, readPieces, Text.splitOn_intercalate rfl (List.cons_ne_nil _ _) hcomma,
      List.map_map]
    rfl

theorem readPieces_cons_of_blank (h : Text.blank piece = true) :
    readPieces (piece :: pieces) = readPieces pieces := by
  rw [readPieces, List.map_cons, Text.trimmed_of_all h, List.filter_cons_of_neg (by simp),
    readPieces]

theorem readPieces_cons (h : Text.blank piece = false) :
    readPieces (piece :: pieces) =
      (readWidth (Text.trimmed piece.toList)).bind fun pair =>
        (readPieces pieces).map (pair :: ·) := by
  have hne : Text.trimmed piece.toList ≠ [] := by
    rw [ne_eq, Text.trimmed_eq_nil_iff]
    exact Bool.not_eq_true _ ▸ h
  rw [readPieces, List.map_cons, List.filter_cons_of_pos (by simpa using hne), List.mapM_cons,
    readPieces]
  rfl

theorem readPieces_cons_of_isEntry (h : IsEntry piece pair) :
    readPieces (piece :: pieces) = (readPieces pieces).map (pair :: ·) := by
  rw [readPieces_cons h.blank_eq_false, readWidth_eq_ok_iff.2 h]
  rfl

theorem readPieces_cons_of_refused (hblank : Text.blank piece = false) (h : Refused piece e) :
    readPieces (piece :: pieces) = .error e := by
  rw [readPieces_cons hblank, readWidth_eq_error_iff.2 h]
  rfl

theorem exists_of_map {ε α β : Type} {x : Except ε α} {f : α → β} {b : β} (h : x.map f = .ok b) :
    ∃ a, x = .ok a ∧ f a = b := by
  cases x with
  | error e => cases h
  | ok a => exact ⟨a, rfl, Except.ok.inj h⟩

theorem map_eq_error_iff {ε α β : Type} {x : Except ε α} {f : α → β} {e : ε} :
    x.map f = .error e ↔ x = .error e := by
  cases x with
  | error e' => simp [Except.map]
  | ok a => simp [Except.map]

/-- A piece is passed over, or it is an entry, or it ends the reading. -/
theorem piece_cases (piece : String) : Text.blank piece = true ∨ (∃ pair, IsEntry piece pair) ∨
    Text.blank piece = false ∧ ∃ e, Refused piece e := by
  cases hblank : Text.blank piece with
  | true => exact .inl rfl
  | false =>
    rcases readWidth_cases piece with ⟨pair, hentry, -⟩ | ⟨e, hrefused, -⟩
    · exact .inr (.inl ⟨pair, hentry⟩)
    · exact .inr (.inr ⟨rfl, e, hrefused⟩)

theorem IsEntry.unique {pair' : String × UInt32} (h : IsEntry piece pair)
    (h' : IsEntry piece pair') : pair = pair' :=
  Except.ok.inj ((readWidth_eq_ok_iff.2 h).symm.trans (readWidth_eq_ok_iff.2 h'))

theorem Refused.unique {e' : WidthError} (h : Refused piece e) (h' : Refused piece e') : e = e' :=
  Except.error.inj ((readWidth_eq_error_iff.2 h).symm.trans (readWidth_eq_error_iff.2 h'))

theorem IsEntry.not_refused (h : IsEntry piece pair) : ¬Refused piece e := by
  intro hrefused
  cases (readWidth_eq_ok_iff.2 h).symm.trans (readWidth_eq_error_iff.2 hrefused)

/-- **What is read of pieces are the pairs that they spell.** -/
theorem readPieces_eq_ok_iff (hcomma : ∀ piece ∈ pieces, ',' ∉ piece.toList) :
    readPieces pieces = .ok pairs ↔
      SpellsPairs pieces pairs ∧ ∀ pair ∈ pairs, IsWidthName pair.1 := by
  induction pieces generalizing pairs with
  | nil =>
    constructor
    · rintro ⟨⟩
      exact ⟨.nil, List.forall_mem_nil _⟩
    · rintro ⟨⟨⟩, -⟩
      rfl
  | cons piece pieces ih =>
    obtain ⟨hfirst, hrest⟩ := List.forall_mem_cons.1 hcomma
    rcases piece_cases piece with hblank | ⟨pair, hentry⟩ | ⟨hblank, e, hrefused⟩
    · rw [readPieces_cons_of_blank hblank, ih hrest, spellsPairs_cons_of_blank hblank]
    · rw [readPieces_cons_of_isEntry hentry]
      constructor
      · intro h
        obtain ⟨pairs, hread, rfl⟩ := exists_of_map h
        obtain ⟨hspells, hnames⟩ := (ih hrest).1 hread
        obtain ⟨hpair, hname⟩ := (isEntry_iff hfirst).1 hentry
        exact ⟨.entry hpair hspells, List.forall_mem_cons.2 ⟨hname, hnames⟩⟩
      · rintro ⟨hall, hproper⟩
        obtain ⟨pair', pairs, rfl, hpair, hspells⟩ :=
          exists_of_spellsPairs_cons hentry.blank_eq_false hall
        obtain ⟨hname, hnames⟩ := List.forall_mem_cons.1 hproper
        obtain rfl := hentry.unique ((isEntry_iff hfirst).2 ⟨hpair, hname⟩)
        rw [(ih hrest).2 ⟨hspells, hnames⟩]
        rfl
    · rw [readPieces_cons_of_refused hblank hrefused]
      constructor
      · rintro ⟨⟩
      · rintro ⟨hspells, hnames⟩
        obtain ⟨pair, pairs, rfl, hpair, -⟩ := exists_of_spellsPairs_cons hblank hspells
        obtain ⟨hname, -⟩ := List.forall_mem_cons.1 hnames
        exact absurd hrefused ((isEntry_iff hfirst).2 ⟨hpair, hname⟩).not_refused

/-- Pieces are read if each of them that is not blank has a width. -/
theorem exists_readPieces_eq_ok_iff :
    (∃ pairs, readPieces pieces = .ok pairs) ↔
      ∀ piece ∈ pieces, Text.blank piece = false → HasWidth piece := by
  induction pieces with
  | nil => exact ⟨fun _ => List.forall_mem_nil _, fun _ => ⟨[], rfl⟩⟩
  | cons piece pieces ih =>
    rw [List.forall_mem_cons, ← ih]
    rcases piece_cases piece with hblank | ⟨pair, hentry⟩ | ⟨hblank, e, hrefused⟩
    · rw [readPieces_cons_of_blank hblank]
      simp [hblank]
    · rw [readPieces_cons_of_isEntry hentry]
      constructor
      · rintro ⟨pairs, h⟩
        obtain ⟨pairs, hread, -⟩ := exists_of_map h
        exact ⟨fun _ => hasWidth_iff.2 ⟨pair, hentry⟩, pairs, hread⟩
      · rintro ⟨-, pairs, hread⟩
        exact ⟨pair :: pairs, by rw [hread]; rfl⟩
    · rw [readPieces_cons_of_refused hblank hrefused]
      constructor
      · rintro ⟨pairs, ⟨⟩⟩
      · rintro ⟨hwidth, -⟩
        obtain ⟨pair, hentry⟩ := hasWidth_iff.1 (hwidth hblank)
        exact absurd hrefused hentry.not_refused

/-- An item for which `Q` holds after items for which `P` holds is the first one or comes later. -/
theorem exists_first_cons_iff {α : Type} {P Q : α → Prop} {a : α} {as : List α} :
    (∃ before x after, a :: as = before ++ x :: after ∧ (∀ y ∈ before, P y) ∧ Q x) ↔
      Q a ∨ P a ∧ ∃ before x after, as = before ++ x :: after ∧ (∀ y ∈ before, P y) ∧ Q x := by
  constructor
  · rintro ⟨_ | ⟨b, before⟩, x, after, heq, hbefore, hx⟩
    · obtain ⟨rfl, -⟩ := List.cons.inj heq
      exact .inl hx
    · obtain ⟨rfl, rfl⟩ := List.cons.inj heq
      obtain ⟨ha, hrest⟩ := List.forall_mem_cons.1 hbefore
      exact .inr ⟨ha, before, x, after, rfl, hrest, hx⟩
  · rintro (ha | ⟨ha, before, x, after, rfl, hbefore, hx⟩)
    · exact ⟨[], a, as, rfl, List.forall_mem_nil _, ha⟩
    · exact ⟨a :: before, x, after, rfl, List.forall_mem_cons.2 ⟨ha, hbefore⟩, hx⟩

/-- **The error is that of the first piece that is refused.** -/
theorem readPieces_eq_error_iff :
    readPieces pieces = .error e ↔ ∃ before piece after, pieces = before ++ piece :: after ∧
      (∀ other ∈ before, Text.blank other = false → HasWidth other) ∧
      Text.blank piece = false ∧ Refused piece e := by
  induction pieces with
  | nil =>
    constructor
    · rintro ⟨⟩
    · rintro ⟨before, piece, after, heq, -⟩
      simp at heq
  | cons piece pieces ih =>
    rw [exists_first_cons_iff, ← ih]
    rcases piece_cases piece with hblank | ⟨pair, hentry⟩ | ⟨hblank, e', hrefused⟩
    · rw [readPieces_cons_of_blank hblank]
      simp [hblank]
    · rw [readPieces_cons_of_isEntry hentry, map_eq_error_iff]
      simp [hentry.not_refused, hasWidth_iff.2 ⟨pair, hentry⟩]
    · rw [readPieces_cons_of_refused hblank hrefused]
      constructor
      · rintro ⟨⟩
        exact .inl ⟨hblank, hrefused⟩
      · rintro (⟨-, h⟩ | ⟨hwidth, -⟩)
        · rw [hrefused.unique h]
        · obtain ⟨pair, hentry⟩ := hasWidth_iff.1 (hwidth hblank)
          exact absurd hrefused hentry.not_refused

/-! ### Whole lists -/

/-- **What is read of a list are the pairs that it lists.** -/
theorem readWidths_eq_ok_iff :
    readWidths text = .ok pairs ↔ ListsWidths text pairs ∧ ∀ pair ∈ pairs, IsWidthName pair.1 := by
  constructor
  · intro h
    obtain ⟨pieces, hcut⟩ := exists_cutsInto text
    rw [readWidths_eq_readPieces hcut, readPieces_eq_ok_iff hcut.comma_not_mem] at h
    exact ⟨⟨pieces, h.1, hcut.eq_intercalate⟩, h.2⟩
  · rintro ⟨⟨pieces, hspells, heq⟩, hnames⟩
    have hcut : CutsInto text pieces := ⟨hspells.comma_not_mem hnames, heq⟩
    rw [readWidths_eq_readPieces hcut, readPieces_eq_ok_iff hcut.comma_not_mem]
    exact ⟨hspells, hnames⟩

/-- **The laws of lists of widths.**  A list is read as pairs exactly if it lists these pairs and
their names can stand in a list: it is made of pieces that spell them in order, with any white space
around names, numerals and commas and any blank pieces between them; the plain form is of this kind.
Every text is cut into pieces at its commas.  It is read as some pairs exactly if each piece that is
not blank has an equals sign with a number after the first one, and otherwise the error is that of
the first piece that is refused. -/
theorem readWidths_laws :
    (∀ text pairs, readWidths text = .ok pairs ↔
      ListsWidths text pairs ∧ ∀ pair ∈ pairs, IsWidthName pair.1) ∧
      (∀ pairs, ListsWidths (",".intercalate (pairs.map plainWidth)) pairs) ∧
      (∀ text, ∃ pieces, CutsInto text pieces) ∧
      ∀ text pieces, CutsInto text pieces →
        ((∃ pairs, readWidths text = .ok pairs) ↔
          ∀ piece ∈ pieces, Text.blank piece = false → HasWidth piece) ∧
        ∀ e, readWidths text = .error e ↔
          ∃ before piece after, pieces = before ++ piece :: after ∧
            (∀ other ∈ before, Text.blank other = false → HasWidth other) ∧
            Text.blank piece = false ∧ Refused piece e := by
  refine ⟨fun _ _ => readWidths_eq_ok_iff, listsWidths_plain, exists_cutsInto, ?_⟩
  intro text pieces hcut
  rw [readWidths_eq_readPieces hcut]
  exact ⟨exists_readPieces_eq_ok_iff, fun e => readPieces_eq_error_iff⟩

/-- A list with blank pieces, an empty name, a plus sign and leading zeros is read as the pairs that
it lists; of two pieces without a width the first one is reported, with its number as it stands. -/
theorem readWidths_laws_of_blanks :
    ListsWidths " ,y =\t+050,, =7,x= 080 , " [("y", 50), ("", 7), ("x", 80)] ∧
      (∀ pair ∈ [("y", (50 : UInt32)), ("", 7), ("x", 80)], IsWidthName pair.1) ∧
      readWidths " ,y =\t+050,, =7,x= 080 , " = .ok [("y", 50), ("", 7), ("x", 80)] ∧
      CutsInto "a=1,, x = -1 ,b" ["a=1", "", " x = -1 ", "b"] ∧
      HasWidth "a=1" ∧ Refused " x = -1 " (.invalidWidth "x" " -1") ∧
      readWidths "a=1,, x = -1 ,b" = .error (.invalidWidth "x" " -1") := by
  obtain ⟨hread, -, -, hpieces⟩ := readWidths_laws
  have hspells {numeral : String} {n : UInt32} (h : Numeral.uint32? numeral.toList = some n) :
      Spells numeral n := Numeral.uint32?_eq_some_iff_spells.1 h
  have hlists : ListsWidths " ,y =\t+050,, =7,x= 080 , " [("y", 50), ("", 7), ("x", 80)] := by
    have hy : SpellsPair "y =\t+050" ("y", 50) :=
      ⟨"+050", "y ", "\t+050", hspells (by decide), ⟨[], [' '], rfl, rfl, rfl⟩,
        ⟨['\t'], [], rfl, rfl, rfl⟩, by decide⟩
    have hempty : SpellsPair " =7" ("", 7) :=
      ⟨"7", " ", "7", hspells (by decide), ⟨[' '], [], rfl, rfl, rfl⟩, .refl _, by decide⟩
    have hx : SpellsPair "x= 080 " ("x", 80) :=
      ⟨"080", "x", " 080 ", hspells (by decide), .refl _, ⟨[' '], [' '], rfl, rfl, rfl⟩, by decide⟩
    exact ⟨[" ", "y =\t+050", "", " =7", "x= 080 ", " "],
      .blank rfl (.entry hy (.blank rfl (.entry hempty (.entry hx (.blank rfl .nil))))), by decide⟩
  have hnames : ∀ pair ∈ [("y", (50 : UInt32)), ("", 7), ("x", 80)], IsWidthName pair.1 := by
    simp only [List.forall_mem_cons]
    exact ⟨⟨by decide, by decide, by decide⟩, ⟨by decide, by decide, by decide⟩,
      ⟨by decide, by decide, by decide⟩, List.forall_mem_nil _⟩
  have hcut : CutsInto "a=1,, x = -1 ,b" ["a=1", "", " x = -1 ", "b"] := ⟨by decide, by decide⟩
  have hwidth : HasWidth "a=1" := ⟨"a", "1", by decide, by decide, 1, hspells (by decide)⟩
  have hrefused : Refused " x = -1 " (.invalidWidth "x" " -1") := by
    have hnone : Numeral.uint32? (Text.trim " -1 ").toList = none := by decide
    have h : Refused (" x " ++ "=" ++ " -1 ") _ := .invalidWidth (by decide) fun n hn => by
      rw [Numeral.uint32?_eq_some_iff_spells.2 hn] at hnone
      cases hnone
    exact h
  refine ⟨hlists, hnames, (hread _ _).2 ⟨hlists, hnames⟩, hcut, hwidth, hrefused, ?_⟩
  refine ((hpieces _ _ hcut).2 _).2 ⟨["a=1", ""], _, ["b"], rfl, ?_, by decide, hrefused⟩
  exact List.forall_mem_cons.2 ⟨fun _ => hwidth, List.forall_mem_singleton.2 nofun⟩

end Console

end QueryEditor
