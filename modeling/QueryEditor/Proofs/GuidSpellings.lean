import Mathlib.Data.Nat.Digits.Lemmas
import Mathlib.Data.String.Basic
import Mathlib.Tactic.IntervalCases
import QueryEditor.Guid
import QueryEditor.Proofs.Numerals
import QueryEditor.Proofs.ValueLists

/-!
# How identifiers are spelled

An identifier is spelled by 32 hexadecimal digits (`Guid.Digits`), bare, in groups between
hyphens, or in such groups in braces.  It is the number that the digits make up, so that neither
the form nor the case of the letters counts.

* `Guid.ofDigits?_eq_some_iff`, `Guid.ofGroups?_eq_some_iff`, `Guid.ofBraced?_eq_some_iff` : what
  each reader takes.
* `Guid.literal?_eq_ofPlain?` : the size of a text in bytes leaves one form at most, so that asking
  for it first makes no difference.
* `Guid.literal?_eq_some_iff` : **the literals are the spellings**, and nothing else is.
* `Guid.literal?_spellings` : the same with what follows for two spellings of one number, for an
  identifier as it is written, and for the one that stands for no record.
-/

namespace QueryEditor

namespace Guid

/-! ### Digits -/

/-- The hexadecimal digits, with letters in either case. -/
def digitChars : List Char := "0123456789abcdefABCDEF".toList

/-- The value of a digit: its place among the digits with lower-case letters. -/
def digitValue (c : Char) : Nat := "0123456789abcdef".toList.idxOf c.toLower

/-- The digits of an identifier. -/
structure Digits where
  chars : List Char
  length_eq : chars.length = 32
  isHex : ∀ c ∈ chars, c ∈ digitChars

/-- The number that the digits make up, the first one counting most. -/
def Digits.number (d : Digits) : Nat := Nat.ofDigits 16 (d.chars.map digitValue).reverse

/-- The identifier of these digits. -/
def Digits.guid (d : Digits) : Guid := ⟨BitVec.ofNat 128 d.number⟩

/-- The digits in groups between hyphens. -/
def Digits.hyphenated (d : Digits) : List Char := ['-'].intercalate (grouped groupSizes d.chars)

/-- The ways to write the digits. -/
inductive Form
  | bare
  | hyphenated
  /-- In groups between hyphens, inside braces. -/
  | braced

/-- The digits as they are written. -/
def Form.write : Form → Digits → List Char
  | bare, d => d.chars
  | hyphenated, d => d.hyphenated
  | braced, d => '\x7b' :: (d.hyphenated ++ ['\x7d'])

/-- A text spells digits if they stand there in one of the forms, perhaps with white space around
them. -/
def Spells (s : String) (d : Digits) : Prop :=
  ∃ form : Form, Text.trimmed s.toList = form.write d

variable {c : Char} {cs : List Char} {ds : List Nat} {g : Guid} {d : Digits} {s : String}
  {v count n : Nat}

/-- What is checked of each character of a list. -/
theorem forall_mem_of_all {p : Char → Prop} [DecidablePred p]
    (h : (cs.all fun c => decide (p c)) = true) : ∀ c ∈ cs, p c := by
  simpa using h

theorem hexDigit?_of_mem : ∀ c ∈ digitChars, hexDigit? c = some (digitValue c) :=
  forall_mem_of_all (by decide)

theorem digitValue_lt : ∀ c ∈ digitChars, digitValue c < 16 := forall_mem_of_all (by decide)

theorem digitValue_eq_zero_iff : ∀ c ∈ digitChars, digitValue c = 0 ↔ c = '0' :=
  forall_mem_of_all (by decide)

theorem utf8Size_of_mem : ∀ c ∈ digitChars, c.utf8Size = 1 := forall_mem_of_all (by decide)

theorem isBlank_of_mem : ∀ c ∈ digitChars, Text.isBlank c = false := forall_mem_of_all (by decide)

theorem mem_digitChars_of_hexDigit? (h : hexDigit? c = some v) : c ∈ digitChars := by
  have hc : c = Char.ofNat c.toNat := (Char.ofNat_toNat c).symm
  unfold hexDigit? at h
  split at h
  case isTrue hrange =>
    obtain ⟨hlow, hhigh⟩ : 48 ≤ c.toNat ∧ c.toNat ≤ 57 := hrange
    rw [hc]
    interval_cases c.toNat <;> decide
  case isFalse =>
    split at h
    case isTrue hrange =>
      obtain ⟨hlow, hhigh⟩ : 97 ≤ c.toNat ∧ c.toNat ≤ 102 := hrange
      rw [hc]
      interval_cases c.toNat <;> decide
    case isFalse =>
      split at h
      case isTrue hrange =>
        obtain ⟨hlow, hhigh⟩ : 65 ≤ c.toNat ∧ c.toNat ≤ 70 := hrange
        rw [hc]
        interval_cases c.toNat <;> decide
      case isFalse => cases h

/-- Digits are read one by one. -/
theorem mapM_hexDigit?_eq_some_iff :
    cs.mapM hexDigit? = some ds ↔ (∀ c ∈ cs, c ∈ digitChars) ∧ ds = cs.map digitValue := by
  induction cs generalizing ds with
  | nil => simp [eq_comm]
  | cons c cs ih =>
    rw [List.mapM_cons, Option.bind_eq_bind, Option.bind_eq_some_iff, List.forall_mem_cons]
    constructor
    · rintro ⟨v, hv, hrest⟩
      obtain ⟨vs, hvs, hds⟩ := Option.bind_eq_some_iff.1 hrest
      have hc := mem_digitChars_of_hexDigit? hv
      obtain ⟨hcs, rfl⟩ := ih.1 hvs
      rw [hexDigit?_of_mem c hc] at hv
      obtain rfl := Option.some.inj hv
      exact ⟨⟨hc, hcs⟩, (Option.some.inj hds).symm⟩
    · rintro ⟨⟨hc, hcs⟩, rfl⟩
      refine ⟨digitValue c, hexDigit?_of_mem c hc, ?_⟩
      rw [ih.2 ⟨hcs, rfl⟩]
      rfl

theorem ofHexDigits_eq (ds : List Nat) : ofHexDigits ds = Nat.ofDigits 16 ds.reverse := by
  rw [ofHexDigits, Nat.ofDigits_eq_foldr, List.foldr_reverse]
  simp only [Nat.cast_id, Nat.add_comm]

theorem Digits.number_lt (d : Digits) : d.number < 2 ^ 128 := by
  have hsize : (d.chars.map digitValue).reverse.length = 32 := by simp [d.length_eq]
  have hdigits : ∀ v ∈ (d.chars.map digitValue).reverse, v < 16 := by
    intro v hv
    obtain ⟨c, hc, rfl⟩ := List.mem_map.1 (List.mem_reverse.1 hv)
    exact digitValue_lt c (d.isHex c hc)
  have hlt := Nat.ofDigits_lt_base_pow_length (by decide) hdigits
  rwa [hsize] at hlt

theorem Digits.toNat_guid (d : Digits) : d.guid.number.toNat = d.number := by
  rw [guid, BitVec.toNat_ofNat, Nat.mod_eq_of_lt d.number_lt]

theorem eq_guid_iff : g = d.guid ↔ g.number.toNat = d.number := by
  constructor
  · rintro rfl
    exact d.toNat_guid
  · intro h
    obtain ⟨number⟩ := g
    rw [Digits.guid, mk.injEq]
    apply BitVec.eq_of_toNat_eq
    rw [BitVec.toNat_ofNat, Nat.mod_eq_of_lt d.number_lt]
    exact h

/-- The identifier without a record is the one of zeros. -/
theorem Digits.guid_eq_nil_iff (d : Digits) : d.guid = nil ↔ ∀ c ∈ d.chars, c = '0' := by
  rw [eq_comm, eq_guid_iff]
  change 0 = d.number ↔ _
  constructor
  · intro h c hc
    have hzero : digitValue c = 0 := by
      refine Nat.digits_zero_of_eq_zero (by decide) h.symm _ (List.mem_reverse.2 ?_)
      exact List.mem_map_of_mem hc
    exact (digitValue_eq_zero_iff c (d.isHex c hc)).1 hzero
  · intro h
    have hzeros : (d.chars.map digitValue).reverse = List.replicate 32 0 := by
      refine List.eq_replicate_iff.2 ⟨by simp [d.length_eq], fun v hv => ?_⟩
      obtain ⟨c, hc, rfl⟩ := List.mem_map.1 (List.mem_reverse.1 hv)
      rw [h c hc]
      rfl
    rw [number, hzeros, Nat.ofDigits_replicate_zero]

/-! ### What the readers take -/

theorem ofDigits?_eq_some_iff :
    ofDigits? cs = some g ↔ ∃ d : Digits, cs = d.chars ∧ g = d.guid := by
  unfold ofDigits?
  split
  case isTrue hlength =>
    rw [Option.map_eq_some_iff]
    constructor
    · rintro ⟨ds, hds, rfl⟩
      obtain ⟨hcs, rfl⟩ := mapM_hexDigit?_eq_some_iff.1 hds
      exact ⟨⟨cs, hlength, hcs⟩, rfl, by rw [ofHexDigits_eq]; rfl⟩
    · rintro ⟨d, rfl, rfl⟩
      refine ⟨_, mapM_hexDigit?_eq_some_iff.2 ⟨d.isHex, rfl⟩, ?_⟩
      rw [ofHexDigits_eq]
      rfl
  case isFalse hlength =>
    refine ⟨nofun, ?_⟩
    rintro ⟨d, rfl, -⟩
    exact absurd d.length_eq hlength

theorem grouped_flatten (groups : List (List Char)) :
    grouped (groups.map List.length) groups.flatten = groups := by
  induction groups with
  | nil => rfl
  | cons group groups ih =>
    rw [List.map_cons, List.flatten_cons, grouped, List.take_left, List.drop_left, ih]

theorem map_length_grouped {sizes : List Nat} (h : sizes.sum = cs.length) :
    (grouped sizes cs).map List.length = sizes := by
  induction sizes generalizing cs with
  | nil => rfl
  | cons size sizes ih =>
    rw [List.sum_cons] at h
    rw [grouped, List.map_cons, ih (by rw [List.length_drop]; omega), List.length_take]
    congr 1
    omega

theorem flatten_grouped {sizes : List Nat} (h : sizes.sum = cs.length) :
    (grouped sizes cs).flatten = cs := by
  induction sizes generalizing cs with
  | nil => exact (List.length_eq_zero_iff.1 h.symm).symm
  | cons size sizes ih =>
    rw [List.sum_cons] at h
    rw [grouped, List.flatten_cons, ih (by rw [List.length_drop]; omega), List.take_append_drop]

theorem Digits.sum_groupSizes (d : Digits) : groupSizes.sum = d.chars.length := d.length_eq.symm

/-- Hyphens are where the digits are cut. -/
theorem Digits.splitOn_hyphenated (d : Digits) :
    d.hyphenated.splitOn '-' = grouped groupSizes d.chars := by
  refine List.splitOn_intercalate '-' (fun group hgroup hmem => ?_) nofun
  have hc : '-' ∈ d.chars := by
    rw [← flatten_grouped d.sum_groupSizes]
    exact List.mem_flatten.2 ⟨group, hgroup, hmem⟩
  exact absurd (d.isHex _ hc) (by decide)

theorem ofGroups?_eq_some_iff :
    ofGroups? cs = some g ↔ ∃ d : Digits, cs = d.hyphenated ∧ g = d.guid := by
  unfold ofGroups?
  constructor
  · intro h
    dsimp only at h
    split at h
    case isFalse => cases h
    case isTrue hsizes =>
      obtain ⟨d, hchars, hg⟩ := ofDigits?_eq_some_iff.1 h
      refine ⟨d, ?_, hg⟩
      rw [Digits.hyphenated, ← hchars, ← hsizes, grouped_flatten, List.intercalate_splitOn]
  · rintro ⟨d, rfl, rfl⟩
    dsimp only
    rw [d.splitOn_hyphenated, if_pos (map_length_grouped d.sum_groupSizes),
      flatten_grouped d.sum_groupSizes]
    exact ofDigits?_eq_some_iff.2 ⟨d, rfl, rfl⟩

theorem unbraced?_eq_some_iff {inner : List Char} :
    unbraced? cs = some inner ↔ cs = '\x7b' :: (inner ++ ['\x7d']) := by
  constructor
  · intro h
    unfold unbraced? at h
    split at h
    case h_2 => cases h
    case h_1 cs =>
      split at h
      case isFalse => cases h
      case isTrue hlast =>
        obtain ⟨inner', rfl⟩ := List.getLast?_eq_some_iff.1 hlast
        rw [List.dropLast_concat] at h
        obtain rfl := Option.some.inj h
        rfl
  · rintro rfl
    rw [unbraced?, if_pos List.getLast?_concat, List.dropLast_concat]

theorem ofBraced?_eq_some_iff :
    ofBraced? cs = some g ↔
      ∃ d : Digits, cs = '\x7b' :: (d.hyphenated ++ ['\x7d']) ∧ g = d.guid := by
  rw [ofBraced?, Option.bind_eq_some_iff]
  constructor
  · rintro ⟨inner, hinner, h⟩
    obtain ⟨d, rfl, hg⟩ := ofGroups?_eq_some_iff.1 h
    exact ⟨d, unbraced?_eq_some_iff.1 hinner, hg⟩
  · rintro ⟨d, rfl, hg⟩
    exact ⟨d.hyphenated, unbraced?_eq_some_iff.2 rfl, ofGroups?_eq_some_iff.2 ⟨d, rfl, hg⟩⟩

/-- The forms have different sizes. -/
def Form.size : Form → Nat
  | bare => 32
  | hyphenated => 36
  | braced => 38

theorem Form.size_injective : Function.Injective Form.size := by
  intro form form' h
  cases form <;> cases form' <;> simp_all [size]

theorem Digits.length_hyphenated (d : Digits) : d.hyphenated.length = 36 := by
  simp [hyphenated, grouped, groupSizes, List.intercalate, List.intersperse, d.length_eq]

theorem Form.length_write (form : Form) (d : Digits) : (form.write d).length = form.size := by
  cases form with
  | bare => exact d.length_eq
  | hyphenated => exact d.length_hyphenated
  | braced => simp [write, size, d.length_hyphenated]

theorem ofPlain?_eq_some_iff :
    ofPlain? cs = some g ↔ ∃ (d : Digits) (form : Form), cs = form.write d ∧ g = d.guid := by
  have hdigits (d : Digits) (form : Form) (hne : form.size ≠ 32) :
      ofDigits? (form.write d) = none := by
    rw [ofDigits?, if_neg]
    rwa [form.length_write]
  have hgroups (d : Digits) : ofGroups? (Form.braced.write d) = none := by
    refine Option.eq_none_iff_forall_ne_some.2 fun g hg => ?_
    obtain ⟨d', hd', -⟩ := ofGroups?_eq_some_iff.1 hg
    have hsizes : Form.braced.size = 36 := by
      rw [← Form.braced.length_write d, hd', d'.length_hyphenated]
    cases hsizes
  rw [ofPlain?, Option.or_eq_some_iff, Option.or_eq_some_iff]
  constructor
  · rintro (h | ⟨-, h | ⟨-, h⟩⟩)
    · obtain ⟨d, rfl, hg⟩ := ofDigits?_eq_some_iff.1 h
      exact ⟨d, .bare, rfl, hg⟩
    · obtain ⟨d, rfl, hg⟩ := ofGroups?_eq_some_iff.1 h
      exact ⟨d, .hyphenated, rfl, hg⟩
    · obtain ⟨d, rfl, hg⟩ := ofBraced?_eq_some_iff.1 h
      exact ⟨d, .braced, rfl, hg⟩
  · rintro ⟨d, form, rfl, rfl⟩
    cases form with
    | bare => exact .inl (ofDigits?_eq_some_iff.2 ⟨d, rfl, rfl⟩)
    | hyphenated =>
      exact .inr ⟨hdigits d _ (by decide), .inl (ofGroups?_eq_some_iff.2 ⟨d, rfl, rfl⟩)⟩
    | braced =>
      exact .inr ⟨hdigits d _ (by decide), .inr ⟨hgroups d, ofBraced?_eq_some_iff.2 ⟨d, rfl, rfl⟩⟩⟩

/-! ### Which form a size stands for -/

theorem length_le_utf8Len (cs : List Char) : cs.length ≤ String.utf8Len cs := by
  induction cs with
  | nil => exact Nat.le_refl 0
  | cons c cs ih =>
    have hc := c.utf8Size_pos
    rw [String.utf8Len_cons, List.length_cons]
    omega

theorem utf8Len_eq_length (h : ∀ c ∈ cs, c.utf8Size = 1) : String.utf8Len cs = cs.length := by
  induction cs with
  | nil => rfl
  | cons c cs ih =>
    obtain ⟨hc, hcs⟩ := List.forall_mem_cons.1 h
    rw [String.utf8Len_cons, ih hcs, hc, List.length_cons]

theorem Digits.mem_hyphenated (d : Digits) (hc : c ∈ d.hyphenated) : c = '-' ∨ c ∈ digitChars := by
  by_cases hyphen : c = '-'
  · exact .inl hyphen
  · obtain ⟨group, hgroup, hmem⟩ := ValueList.exists_piece_iff.2 ⟨hc, hyphen⟩
    rw [d.splitOn_hyphenated] at hgroup
    refine .inr (d.isHex c ?_)
    rw [← flatten_grouped d.sum_groupSizes]
    exact List.mem_flatten.2 ⟨group, hgroup, hmem⟩

theorem Digits.utf8Len_hyphenated (d : Digits) : String.utf8Len d.hyphenated = 36 := by
  rw [utf8Len_eq_length, d.length_hyphenated]
  intro c hc
  obtain rfl | hdigit := d.mem_hyphenated hc
  · rfl
  · exact utf8Size_of_mem c hdigit

theorem utf8Len_braced (cs : List Char) :
    String.utf8Len ('\x7b' :: (cs ++ ['\x7d'])) = String.utf8Len cs + 2 := by
  rw [String.utf8Len_cons, String.utf8Len_append]
  rfl

theorem Form.utf8Len_write (form : Form) (d : Digits) :
    String.utf8Len (form.write d) = form.size := by
  cases form with
  | bare =>
    rw [write, utf8Len_eq_length fun c hc => utf8Size_of_mem c (d.isHex c hc)]
    exact d.length_eq
  | hyphenated => exact d.utf8Len_hyphenated
  | braced => rw [write, utf8Len_braced, d.utf8Len_hyphenated, size]

/-- A resource name is longer than all forms of a literal. -/
theorem ofUrn?_eq_none (h : cs.length < 45) : ofUrn? cs = none := by
  unfold ofUrn?
  split
  case isFalse => rfl
  case isTrue hlead =>
    refine Option.eq_none_iff_forall_ne_some.2 fun g hg => ?_
    obtain ⟨d, hd, -⟩ := ofGroups?_eq_some_iff.1 hg
    have hlength := congrArg List.length hd
    rw [List.length_drop, d.length_hyphenated] at hlength
    have hlead : urnLead.length = 9 := rfl
    omega

theorem read?_ofList (h : String.utf8Len cs < 45) : read? (String.ofList cs) = ofPlain? cs := by
  have hurn : ofUrn? cs = none := ofUrn?_eq_none ((length_le_utf8Len cs).trans_lt h)
  rw [read?, String.toList_ofList, hurn, Option.or_none]

/-- **The size of a literal in bytes tells its form**, so that all forms may be tried. -/
theorem literal?_eq_ofPlain? (s : String) : literal? s = ofPlain? (Text.trimmed s.toList) := by
  rw [literal?, Text.trim, String.utf8ByteSize_ofList, String.toList_ofList]
  generalize Text.trimmed s.toList = cs
  split
  case isTrue hsize => exact read?_ofList (by omega)
  case isFalse hplain =>
    split
    case isTrue hsize =>
      refine Option.ext fun g => ?_
      rw [Option.bind_eq_some_iff, ofPlain?_eq_some_iff]
      constructor
      · rintro ⟨inner, hinner, hg⟩
        obtain rfl := unbraced?_eq_some_iff.1 hinner
        rw [utf8Len_braced, Nat.add_right_cancel_iff] at hsize
        rw [read?_ofList (by omega)] at hg
        obtain ⟨d, form, rfl, rfl⟩ := ofPlain?_eq_some_iff.1 hg
        -- only the groups have the size of what is left without the braces
        obtain rfl : form = .hyphenated := Form.size_injective (form.utf8Len_write d ▸ hsize)
        exact ⟨d, .braced, rfl, rfl⟩
      · rintro ⟨d, form, rfl, rfl⟩
        obtain rfl : form = .braced := Form.size_injective (form.utf8Len_write d ▸ hsize)
        refine ⟨d.hyphenated, unbraced?_eq_some_iff.2 rfl, ?_⟩
        rw [read?_ofList (by rw [d.utf8Len_hyphenated]; decide)]
        exact ofPlain?_eq_some_iff.2 ⟨d, .hyphenated, rfl, rfl⟩
    case isFalse hbraced =>
      refine (Option.eq_none_iff_forall_ne_some.2 fun g hg => ?_).symm
      obtain ⟨d, form, rfl, -⟩ := ofPlain?_eq_some_iff.1 hg
      rw [form.utf8Len_write] at hplain hbraced
      cases form with
      | bare => exact hplain (.inl rfl)
      | hyphenated => exact hplain (.inr rfl)
      | braced => exact hbraced rfl

/-- **The literals are the spellings.** -/
theorem literal?_eq_some_iff : literal? s = some g ↔ ∃ d, Spells s d ∧ g = d.guid := by
  rw [literal?_eq_ofPlain?, ofPlain?_eq_some_iff]
  constructor
  · rintro ⟨d, form, hform, hg⟩
    exact ⟨d, ⟨form, hform⟩, hg⟩
  · rintro ⟨d, ⟨form, hform⟩, hg⟩
    exact ⟨d, form, hform, hg⟩

theorem Spells.literal?_eq (h : Spells s d) : literal? s = some d.guid :=
  literal?_eq_some_iff.2 ⟨d, h, rfl⟩

/-! ### The identifier as it is written -/

/-- The digits with letters in lower case. -/
def lowerDigitChars : List Char := "0123456789abcdef".toList

theorem hexChar_mem : ∀ v < 16, hexChar v ∈ lowerDigitChars ∧ digitValue (hexChar v) = v := by
  decide

theorem length_hexDigits (count n : Nat) : (hexDigits count n).length = count := by
  induction count generalizing n with
  | zero => rfl
  | succ count ih => rw [hexDigits, List.length_append, ih, List.length_singleton]

theorem mem_lowerDigitChars_of_mem_hexDigits :
    ∀ c ∈ hexDigits count n, c ∈ lowerDigitChars := by
  induction count generalizing n with
  | zero => exact fun c hc => absurd hc List.not_mem_nil
  | succ count ih =>
    rw [hexDigits, List.forall_mem_append]
    refine ⟨ih, fun c hc => ?_⟩
    rw [List.mem_singleton.1 hc]
    exact (hexChar_mem _ (Nat.mod_lt n (by decide))).1

/-- The lowest digits of a number make up the number, less what does not fit in them. -/
theorem ofDigits_hexDigits (count n : Nat) :
    Nat.ofDigits 16 ((hexDigits count n).map digitValue).reverse = n % 16 ^ count := by
  induction count generalizing n with
  | zero => rw [hexDigits, Nat.pow_zero, Nat.mod_one]; rfl
  | succ count ih =>
    have hlast : digitValue (hexChar (n % 16)) = n % 16 :=
      (hexChar_mem _ (Nat.mod_lt n (by decide))).2
    rw [hexDigits, List.map_append, List.reverse_append, List.map_singleton,
      List.reverse_singleton, List.singleton_append, Nat.ofDigits_cons, ih, hlast, Nat.pow_succ',
      Nat.mod_mul]

/-- The digits that are written of an identifier. -/
def lowerDigits (g : Guid) : Digits where
  chars := hexDigits 32 g.number.toNat
  length_eq := length_hexDigits 32 _
  isHex := by
    have hlower : ∀ c ∈ lowerDigitChars, c ∈ digitChars := forall_mem_of_all (by decide)
    exact fun c hc => hlower c (mem_lowerDigitChars_of_mem_hexDigits c hc)

theorem toList_render (g : Guid) : g.render.toList = g.lowerDigits.hyphenated :=
  String.toList_ofList

theorem guid_lowerDigits (g : Guid) : g.lowerDigits.guid = g := by
  have hlt : g.number.toNat < 16 ^ 32 := g.number.isLt
  refine (eq_guid_iff.2 ?_).symm
  rw [Digits.number, lowerDigits, ofDigits_hexDigits, Nat.mod_eq_of_lt hlt]

theorem spells_render (g : Guid) : Spells g.render g.lowerDigits := by
  refine ⟨.hyphenated, ?_⟩
  rw [toList_render, Text.trimmed_of_no_blank]
  · rfl
  · intro c hc
    obtain rfl | hdigit := g.lowerDigits.mem_hyphenated hc
    · rfl
    · exact isBlank_of_mem c hdigit

/-- **The literals of identifiers are the spellings of their digits**, and the identifier is the
number of these digits.  So all spellings of one number are read alike, an identifier as it is
written is read back, and the one without a record is what stands for zeros only. -/
theorem literal?_spellings :
    (∀ s g, literal? s = some g ↔ ∃ d, Spells s d ∧ g.number.toNat = d.number) ∧
    (∀ s s' d d', Spells s d → Spells s' d' → d.number = d'.number →
      literal? s = literal? s') ∧
    (∀ g : Guid, literal? g.render = some g ∧ ∃ d : Digits, g.render.toList = d.hyphenated ∧
      ∀ c ∈ d.chars, c ∈ lowerDigitChars) ∧
    ∀ s g d, literal? s = some g → Spells s d → (g = nil ↔ ∀ c ∈ d.chars, c = '0') := by
  refine ⟨fun s g => ?_, fun s s' d d' h h' hsame => ?_, fun g => ⟨?_, ?_⟩,
    fun s g d hread h => ?_⟩
  case refine_1 => simp only [literal?_eq_some_iff, eq_guid_iff]
  case refine_2 =>
    have hguid : d.guid = d'.guid := by rw [eq_guid_iff, d.toNat_guid, hsame]
    rw [h.literal?_eq, h'.literal?_eq, hguid]
  case refine_3 => rw [(spells_render g).literal?_eq, guid_lowerDigits]
  case refine_4 =>
    exact ⟨g.lowerDigits, toList_render g, mem_lowerDigitChars_of_mem_hexDigits⟩
  case refine_5 =>
    rw [h.literal?_eq] at hread
    obtain rfl := Option.some.inj hread
    exact d.guid_eq_nil_iff

/-- The digits of an identifier of a record. -/
def sampleDigits : Digits :=
  ⟨"6f9619ff8b86d011b42d00c04fc964ff".toList, by decide +kernel,
    forall_mem_of_all (by decide +kernel)⟩

/-- The same digits with letters in upper case. -/
def sampleUpperDigits : Digits :=
  ⟨"6F9619FF8B86D011B42D00C04FC964FF".toList, by decide +kernel,
    forall_mem_of_all (by decide +kernel)⟩

/-- Digits in braces with white space around them, and the same digits bare and in upper case. -/
theorem literal?_spellings_of_sample :
    let braced := "\u3000\x7b6f9619ff-8b86-d011-b42d-00c04fc964ff\x7d\n"
    let bare := "6F9619FF8B86D011B42D00C04FC964FF"
    Spells braced sampleDigits ∧ Spells bare sampleUpperDigits ∧
      sampleDigits.number = sampleUpperDigits.number ∧ literal? braced = literal? bare ∧
      literal? braced = some sampleDigits.guid ∧ sampleDigits.guid ≠ nil := by
  intro braced bare
  have hbraced : Spells braced sampleDigits := ⟨.braced, by decide +kernel⟩
  have hbare : Spells bare sampleUpperDigits := ⟨.bare, by decide +kernel⟩
  have hnumber : sampleDigits.number = sampleUpperDigits.number := by decide +kernel
  obtain ⟨hspelled, halike, -, hnil⟩ := literal?_spellings
  have hread : literal? braced = some sampleDigits.guid :=
    (hspelled _ _).2 ⟨sampleDigits, hbraced, sampleDigits.toNat_guid⟩
  refine ⟨hbraced, hbare, hnumber, halike _ _ _ _ hbraced hbare hnumber, hread, fun h => ?_⟩
  have hzeros := (hnil _ _ _ hread hbraced).1 h
  exact absurd (hzeros '6' (by decide +kernel)) (by decide)

end Guid

end QueryEditor
