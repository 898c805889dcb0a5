import QueryEditor.Text.Blank
import QueryEditor.Text.Numeral

/-!
# Numerals read back

The decimal numeral of a number is read as that number, also from text with white space around
it.

* `Numeral.natural?_toDigits` : the digits of a natural number are read as that number.
* `Numeral.signed?_toString` : so is the numeral of an integer, its minus sign included.
* `Numeral.uint32?_eq_some_iff_spells` : what an unsigned number of 32 bits is read from.
* `Numeral.uint32?_ofUInt32`, `Numeral.int32?_ofInt32` : **what is written of a 32-bit number
  is read as that number.**
-/

namespace QueryEditor

namespace Text

theorem dropWhile_isBlank_of_none {cs : List Char} (h : ∀ c ∈ cs, isBlank c = false) :
    cs.dropWhile isBlank = cs := by
  cases cs with
  | nil => rfl
  | cons c cs => rw [List.dropWhile_cons_of_neg (by simp [h c List.mem_cons_self])]

/-- Trimming leaves a text without white space as it is. -/
theorem trimmed_of_no_blank {cs : List Char} (h : ∀ c ∈ cs, isBlank c = false) :
    trimmed cs = cs := by
  have hreverse : ∀ c ∈ cs.reverse, isBlank c = false := fun c hc => h c (List.mem_reverse.1 hc)
  rw [trimmed, trimRight, trimLeft, trimLeft, dropWhile_isBlank_of_none h,
    dropWhile_isBlank_of_none hreverse, List.reverse_reverse]

end Text

namespace Numeral

theorem digit?_of_isDigit {c : Char} (h : c.isDigit = true) :
    digit? c = some (c.toNat - '0'.toNat) := by
  refine if_pos ?_
  simpa [Char.isDigit, Char.le_def] using h

theorem isBlank_of_isDigit {c : Char} (h : c.isDigit = true) : Text.isBlank c = false := by
  obtain ⟨hlow, hhigh⟩ : 48 ≤ c.toNat ∧ c.toNat ≤ 57 := by
    simpa [Char.isDigit, UInt32.le_iff_toNat_le] using h
  simp [Text.isBlank]
  omega

/-- Digits go on from the number that those before them make up. -/
theorem continueFrom?_of_isDigit {n : Nat} {cs : List Char} (h : ∀ c ∈ cs, c.isDigit = true) :
    continueFrom? n cs = some (Nat.ofDigitChars 10 cs n) := by
  induction cs generalizing n with
  | nil => rw [continueFrom?, Nat.ofDigitChars_nil]
  | cons c cs ih =>
    obtain ⟨hc, hcs⟩ := List.forall_mem_cons.1 h
    rw [continueFrom?, digit?_of_isDigit hc, Option.bind_some, ih hcs, Nat.ofDigitChars_cons]

theorem isDigit_of_mem_toDigits {n : Nat} : ∀ c ∈ Nat.toDigits 10 n, c.isDigit = true :=
  fun _ => Nat.isDigit_of_mem_toDigits (by decide) (by decide)

/-- A numeral starts with a digit, so neither sign is taken for its first character. -/
theorem exists_toDigits_eq_cons (n : Nat) :
    ∃ c cs, Nat.toDigits 10 n = c :: cs ∧ c ≠ '+' ∧ c ≠ '-' := by
  obtain ⟨c, cs, hd⟩ := List.exists_cons_of_ne_nil (Nat.toDigits_ne_nil (n := n) (b := 10))
  have hc : c.isDigit = true := isDigit_of_mem_toDigits c (hd ▸ List.mem_cons_self)
  refine ⟨c, cs, hd, ?_, ?_⟩
  · rintro rfl
    cases hc
  · rintro rfl
    cases hc

theorem natural?_toDigits (n : Nat) : natural? (Nat.toDigits 10 n) = some n := by
  have hread : continueFrom? 0 (Nat.toDigits 10 n) = some n := by
    rw [continueFrom?_of_isDigit isDigit_of_mem_toDigits, Nat.ofDigitChars_ten_toDigits]
  obtain ⟨c, cs, hd, -, -⟩ := exists_toDigits_eq_cons n
  rwa [hd] at hread ⊢

theorem unsigned?_toDigits (n : Nat) : unsigned? (Nat.toDigits 10 n) = some n := by
  have hread := natural?_toDigits n
  obtain ⟨c, cs, hd, hplus, -⟩ := exists_toDigits_eq_cons n
  rw [hd] at hread ⊢
  unfold unsigned?
  split
  case h_1 heq => exact absurd (List.cons.inj heq).1 hplus
  case h_2 => exact hread

theorem signed?_toDigits (n : Nat) : signed? (Nat.toDigits 10 n) = some (n : Int) := by
  have hread := unsigned?_toDigits n
  obtain ⟨c, cs, hd, -, hminus⟩ := exists_toDigits_eq_cons n
  rw [hd] at hread ⊢
  unfold signed?
  split
  case h_1 heq => exact absurd (List.cons.inj heq).1 hminus
  case h_2 => rw [hread]; rfl

theorem toList_toString_natCast (n : Nat) : (toString (n : Int)).toList = Nat.toDigits 10 n :=
  Nat.toList_repr

theorem toList_toString_negSucc (n : Nat) :
    (toString (Int.negSucc n)).toList = '-' :: Nat.toDigits 10 (n + 1) := by
  change ("-" ++ Nat.repr (n + 1)).toList = _
  rw [String.toList_append, Nat.toList_repr]
  rfl

theorem signed?_toString (i : Int) : signed? (toString i).toList = some i := by
  cases i with
  | ofNat n => exact (congrArg signed? (toList_toString_natCast n)).trans (signed?_toDigits n)
  | negSucc n =>
    rw [toList_toString_negSucc, signed?, natural?_toDigits]
    rfl

theorem isDigit_or_of_mem_toString {i : Int} :
    ∀ c ∈ (toString i).toList, c.isDigit = true ∨ c = '-' := by
  cases i with
  | ofNat n =>
    intro c hc
    exact .inl (isDigit_of_mem_toDigits c (toList_toString_natCast n ▸ hc))
  | negSucc n =>
    rw [toList_toString_negSucc]
    exact List.forall_mem_cons.2 ⟨.inr rfl, fun c hc => .inl (isDigit_of_mem_toDigits c hc)⟩

theorem isBlank_of_mem_toString {i : Int} :
    ∀ c ∈ (toString i).toList, Text.isBlank c = false := by
  intro c hc
  obtain hdigit | rfl := isDigit_or_of_mem_toString c hc
  · exact isBlank_of_isDigit hdigit
  · rfl

/-! ### What is read as a number -/

theorem digit?_eq_some_iff {c : Char} {d : Nat} :
    digit? c = some d ↔ c.isDigit = true ∧ d = c.toNat - '0'.toNat := by
  constructor
  · intro h
    rw [digit?] at h
    split at h
    case isTrue hrange =>
      exact ⟨by simpa [Char.isDigit, Char.le_def] using hrange, (Option.some.inj h).symm⟩
    case isFalse => cases h
  · rintro ⟨hc, rfl⟩
    exact digit?_of_isDigit hc

theorem continueFrom?_eq_some_iff {n m : Nat} {cs : List Char} :
    continueFrom? n cs = some m ↔
      (∀ c ∈ cs, c.isDigit = true) ∧ Nat.ofDigitChars 10 cs n = m := by
  induction cs generalizing n with
  | nil => simp [continueFrom?, Nat.ofDigitChars_nil]
  | cons c cs ih =>
    rw [continueFrom?, Option.bind_eq_some_iff, List.forall_mem_cons, Nat.ofDigitChars_cons]
    constructor
    · rintro ⟨d, hd, hrest⟩
      obtain ⟨hc, rfl⟩ := digit?_eq_some_iff.1 hd
      obtain ⟨hcs, hvalue⟩ := ih.1 hrest
      exact ⟨⟨hc, hcs⟩, hvalue⟩
    · rintro ⟨⟨hc, hcs⟩, hvalue⟩
      exact ⟨_, digit?_of_isDigit hc, ih.2 ⟨hcs, hvalue⟩⟩

theorem natural?_eq_some_iff {n : Nat} {cs : List Char} :
    natural? cs = some n ↔
      cs ≠ [] ∧ (∀ c ∈ cs, c.isDigit = true) ∧ Nat.ofDigitChars 10 cs 0 = n := by
  rcases cs with _ | ⟨c, cs⟩
  · simp [natural?]
  · rw [natural?.eq_2 _ (List.cons_ne_nil c cs), continueFrom?_eq_some_iff]
    simp

/-- A plus sign before the digits changes nothing, and there is no other sign. -/
theorem unsigned?_eq_some_iff {n : Nat} {cs : List Char} :
    unsigned? cs = some n ↔
      ∃ digits, (cs = digits ∨ cs = '+' :: digits) ∧ natural? digits = some n := by
  constructor
  · intro h
    unfold unsigned? at h
    split at h
    case h_1 digits => exact ⟨digits, .inr rfl, h⟩
    case h_2 => exact ⟨cs, .inl rfl, h⟩
  · rintro ⟨digits, rfl | rfl, hread⟩
    · unfold unsigned?
      split
      case h_1 rest =>
        -- a plus sign is no digit
        obtain ⟨-, hdigits, -⟩ := natural?_eq_some_iff.1 hread
        exact absurd (hdigits '+' List.mem_cons_self) (by decide)
      case h_2 => exact hread
    · exact hread

/-! ### Numbers of 32 bits -/

/-- A text spells a number: it is one or more digits, with or without a plus sign before them. -/
def Spells (piece : String) (n : UInt32) : Prop :=
  ∃ digits : List Char, (piece.toList = digits ∨ piece.toList = '+' :: digits) ∧ digits ≠ [] ∧
    (∀ c ∈ digits, c.isDigit = true) ∧ Nat.ofDigitChars 10 digits 0 = n.toNat

theorem uint32?_eq_some_iff {cs : List Char} {n : UInt32} :
    uint32? cs = some n ↔ unsigned? cs = some n.toNat := by
  rw [uint32?, Option.bind_eq_some_iff]
  constructor
  · rintro ⟨m, hm, hn⟩
    split at hn
    case isTrue hlt =>
      obtain rfl := Option.some.inj hn
      rw [hm, UInt32.toNat_ofNat_of_lt' hlt]
    case isFalse => cases hn
  · intro h
    exact ⟨n.toNat, h, by rw [if_pos n.toNat_lt, UInt32.ofNat_toNat]⟩

/-- **The numbers of 32 bits are read from what spells them**, and from nothing else. -/
theorem uint32?_eq_some_iff_spells {piece : String} {n : UInt32} :
    uint32? piece.toList = some n ↔ Spells piece n := by
  rw [uint32?_eq_some_iff, unsigned?_eq_some_iff, Spells]
  simp only [natural?_eq_some_iff]

theorem Spells.isDigit_or_eq_plus {piece : String} {n : UInt32} (h : Spells piece n) :
    ∀ c ∈ piece.toList, c.isDigit = true ∨ c = '+' := by
  obtain ⟨digits, heq, -, hdigits, -⟩ := h
  rcases heq with heq | heq
  · rw [heq]
    exact fun c hc => .inl (hdigits c hc)
  · rw [heq]
    exact List.forall_mem_cons.2 ⟨.inr rfl, fun c hc => .inl (hdigits c hc)⟩

theorem Spells.not_mem {piece : String} {n : UInt32} {c : Char} (h : Spells piece n)
    (hdigit : c.isDigit = false) (hplus : c ≠ '+') : c ∉ piece.toList := by
  intro hc
  rcases h.isDigit_or_eq_plus c hc with hdigit' | hplus'
  · cases hdigit.symm.trans hdigit'
  · exact hplus hplus'

/-- There is no white space in what spells a number. -/
theorem Spells.isBlank_eq_false {piece : String} {n : UInt32} (h : Spells piece n) :
    ∀ c ∈ piece.toList, Text.isBlank c = false := by
  intro c hc
  rcases h.isDigit_or_eq_plus c hc with hdigit | rfl
  · exact isBlank_of_isDigit hdigit
  · rfl

theorem uint32?_ofUInt32 (n : UInt32) : uint32? (ofUInt32 n).toList = some n := by
  have hlist : (ofUInt32 n).toList = Nat.toDigits 10 n.toNat := Nat.toList_repr
  rw [uint32?, hlist, unsigned?_toDigits, Option.bind_some, if_pos n.toNat_lt]
  exact congrArg some (UInt32.ofNat_toNat)

theorem narrow32?_toInt (n : Int32) : narrow32? n.toInt = some n := by
  have hn : Int32.minValue.toInt ≤ n.toInt ∧ n.toInt ≤ Int32.maxValue.toInt :=
    ⟨n.minValue_le_toInt, n.toInt_le⟩
  rw [narrow32?, if_pos hn, Int32.ofInt_toInt]

theorem int32?_ofInt32 (n : Int32) : int32? (ofInt32 n).toList = some n := by
  rw [int32?, ofInt32, signed?_toString, Option.bind_some, narrow32?_toInt]

theorem trim_ofInt32 (n : Int32) : Text.trim (ofInt32 n) = ofInt32 n := by
  have hblank : ∀ c ∈ (ofInt32 n).toList, Text.isBlank c = false := isBlank_of_mem_toString
  rw [Text.trim, Text.trimmed_of_no_blank hblank, String.ofList_toList]

/-- **The width of a cell is read back.** -/
theorem uint32?_trimmed_ofUInt32 (n : UInt32) :
    uint32? (Text.trimmed (ofUInt32 n).toList) = some n := by
  rw [Text.trimmed_of_no_blank, uint32?_ofUInt32]
  exact isBlank_of_mem_toString (i := (n.toNat : Int))

/-- **An object type code is read back.** -/
theorem int32?_trimmed_ofInt32 (n : Int32) :
    int32? (Text.trimmed (ofInt32 n).toList) = some n := by
  rw [Text.trimmed_of_no_blank, int32?_ofInt32]
  exact isBlank_of_mem_toString

end Numeral

end QueryEditor
