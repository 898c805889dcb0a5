import Mathlib.Logic.Relation
import QueryEditor.Condition.Check

/-!
# Literals of wider types

A numeral of a whole number is also a decimal numeral, of the same number without decimal places.
So the literals of a numeric type stay valid when an attribute is given a wider one.

* `DecimalNumeral.plain?_of_signed?` : what a numeral of a whole number is read as where decimal
  numbers are allowed.
* `AttributeType.Widens.rejection?_eq_none` : one step to a wider type.
* `AttributeType.widened_keeps_literals` : **no literal of a condition is turned away once the type
  of its attribute is wider.**
-/

namespace QueryEditor

variable {cs : List Char} {n m : Nat} {i : Int} {value text : String}

/-! ### Numerals of whole numbers as decimal numerals -/

theorem Numeral.le_of_continueFrom? (h : continueFrom? n cs = some m) : n ≤ m := by
  induction cs generalizing n with
  | nil => exact Nat.le_of_eq (Option.some.inj h)
  | cons c cs ih =>
    obtain ⟨d, -, hrest⟩ := Option.bind_eq_some_iff.1 h
    have hle := ih hrest
    omega

namespace DecimalNumeral

open Numeral (digit? continueFrom? natural? signed? int32? int64?)

/-- Digits of a number that fits are read as that number. -/
theorem whole?_of_continueFrom? (h : continueFrom? n cs = some m) (hm : m < mantissaBound) :
    whole? n cs = some ⟨m, 0⟩ := by
  induction cs generalizing n with
  | nil =>
    obtain rfl := Option.some.inj h
    rfl
  | cons c cs ih =>
    obtain ⟨d, hd, hrest⟩ := Option.bind_eq_some_iff.1 h
    have hunderscore : c ≠ '_' := by
      rintro rfl
      cases hd
    have hpoint : c ≠ '.' := by
      rintro rfl
      cases hd
    -- no number that is read on the way is larger than the last one
    have hfits : 10 * n + d < mantissaBound :=
      Nat.lt_of_le_of_lt (Numeral.le_of_continueFrom? hrest) hm
    rw [whole?, if_neg hunderscore, if_neg hpoint, hd, Option.bind_some, if_pos hfits, ih hrest]

theorem unsigned?_of_natural? (h : natural? cs = some m) (hm : m < mantissaBound) :
    unsigned? cs = some ⟨m, 0⟩ := by
  cases cs with
  | nil => cases h
  | cons c cs =>
    obtain ⟨d, hd, -⟩ := Option.bind_eq_some_iff.1 h
    have hpoint : c ≠ '.' := by
      rintro rfl
      cases hd
    rw [unsigned?, if_neg hpoint, if_pos (by rw [hd, Option.isSome_some])]
    exact whole?_of_continueFrom? h hm

/-- **A numeral of a whole number is read as that number**, with no decimal places. -/
theorem plain?_of_signed? (h : signed? cs = some i) (hi : i.natAbs < mantissaBound) :
    plain? cs = some ⟨i.natAbs, 0⟩ := by
  unfold signed? at h
  split at h
  case h_1 cs =>
    obtain ⟨_, hread, rfl⟩ := Option.map_eq_some_iff.1 h
    obtain ⟨m, hm, heq⟩ := Option.bind_eq_some_iff.1 hread
    obtain rfl := Option.some.inj heq
    rw [Int.natAbs_neg] at hi ⊢
    exact unsigned?_of_natural? hm hi
  case h_2 hminus =>
    obtain ⟨_, hread, rfl⟩ := Option.map_eq_some_iff.1 h
    obtain ⟨m, hm, heq⟩ := Option.bind_eq_some_iff.1 hread
    obtain rfl := Option.some.inj heq
    unfold Numeral.unsigned? at hm
    split at hm
    case h_1 cs => exact unsigned?_of_natural? hm hi
    case h_2 hplus =>
      unfold plain?
      split
      case h_1 => exact absurd rfl (hplus _)
      case h_2 => exact absurd rfl (hminus _)
      case h_3 => exact unsigned?_of_natural? hm hi

theorem accepts_of_int64? (h : (int64? cs).isSome) : accepts cs = true := by
  obtain ⟨k, hk⟩ := Option.isSome_iff_exists.1 h
  obtain ⟨i, hi, hrange⟩ := Option.bind_eq_some_iff.1 hk
  split at hrange
  case isFalse => cases hrange
  case isTrue hfits =>
    obtain ⟨hlow, hhigh⟩ : -9223372036854775808 ≤ i ∧ i ≤ 9223372036854775807 := hfits
    have hbound : i.natAbs < mantissaBound := by
      have hvalue : mantissaBound = 79228162514264337593543950336 := by decide
      omega
    rw [accepts, plain?_of_signed? hi hbound, Option.isSome_some, Bool.true_or]

end DecimalNumeral

theorem Numeral.int64?_of_int32? (h : (int32? cs).isSome) : (int64? cs).isSome := by
  obtain ⟨k, hk⟩ := Option.isSome_iff_exists.1 h
  obtain ⟨i, hi, hrange⟩ := Option.bind_eq_some_iff.1 hk
  unfold narrow32? at hrange
  split at hrange
  case isFalse => cases hrange
  case isTrue hfits =>
    obtain ⟨hlow, hhigh⟩ : -2147483648 ≤ i ∧ i ≤ 2147483647 := hfits
    have hwide : Int64.minValue.toInt ≤ i ∧ i ≤ Int64.maxValue.toInt := by
      change -9223372036854775808 ≤ i ∧ i ≤ 9223372036854775807
      omega
    rw [int64?, hi, Option.bind_some, if_pos hwide, Option.isSome_some]

/-! ### Wider types -/

theorem Literal.rejectUnless_eq_none_iff {passes : Bool} {why : Rejection} :
    rejectUnless passes why = none ↔ passes = true := by
  cases passes <;> simp [rejectUnless]

namespace AttributeType

/-- One numeric type has room for all numbers of another: 64 bits for what has 32, and decimal
numbers for whole ones. -/
inductive Widens : AttributeType → AttributeType → Prop
  | toBigInt {narrow : AttributeType} :
      narrow ∈ [integer, state, status, picklist, entityName] → Widens narrow bigInt
  | toDecimal {wide : AttributeType} : wide ∈ [decimal, double, money] → Widens bigInt wide

variable {narrow wide : AttributeType}

/-- A literal of a type is one of the next wider type. -/
theorem Widens.rejection?_eq_none (h : Widens narrow wide)
    (hvalue : Literal.rejection? (some narrow) value = none) :
    Literal.rejection? (some wide) value = none := by
  cases h with
  | toBigInt hnarrow =>
    have hread : (Numeral.int32? (Text.trimmed value.toList)).isSome := by
      simp only [List.mem_cons, List.not_mem_nil, or_false] at hnarrow
      obtain rfl | rfl | rfl | rfl | rfl := hnarrow
      all_goals exact Literal.rejectUnless_eq_none_iff.1 hvalue
    exact Literal.rejectUnless_eq_none_iff.2 (Numeral.int64?_of_int32? hread)
  | toDecimal hwide =>
    have hread : (Numeral.int64? (Text.trimmed value.toList)).isSome :=
      Literal.rejectUnless_eq_none_iff.1 hvalue
    have hpasses : Literal.rejectUnless (DecimalNumeral.accepts (Text.trimmed value.toList))
        .decimal = none :=
      Literal.rejectUnless_eq_none_iff.2 (DecimalNumeral.accepts_of_int64? hread)
    simp only [List.mem_cons, List.not_mem_nil, or_false] at hwide
    obtain rfl | rfl | rfl := hwide
    all_goals exact hpasses

theorem rejection?_of_widens (h : Relation.TransGen Widens narrow wide)
    (hvalue : Literal.rejection? (some narrow) value = none) :
    Literal.rejection? (some wide) value = none := by
  induction h with
  | single hstep => exact hstep.rejection?_eq_none hvalue
  | tail _ hstep ih => exact hstep.rejection?_eq_none ih

end AttributeType

/-! ### Conditions on an attribute whose type is widened -/

/-- The attribute with another type. -/
def Attribute.withType (a : Attribute) (t : AttributeType) : Attribute := { a with type := t }

namespace Check

variable {op : Operator} {a : Attribute} {wide : AttributeType}

/-- A literal of the type that an operator asks for is one of the type it asks for afterwards. -/
theorem literal_withType (h : Relation.TransGen AttributeType.Widens a.type wide)
    (hvalue : literal op (literalType op (some a)) value = none) :
    literal op (literalType op (some (a.withType wide))) value = none := by
  unfold literalType at hvalue ⊢
  cases hoperand : op.operand with
  | none =>
    rw [hoperand] at hvalue
    exact hvalue
  | some operand =>
    rw [hoperand] at hvalue
    cases operand with
    | fixed t => exact hvalue
    | ofAttribute =>
      rw [literal, Option.map_eq_none_iff] at hvalue ⊢
      exact AttributeType.rejection?_of_widens h hvalue

theorem value_withType (h : Relation.TransGen AttributeType.Widens a.type wide) {valueOf : String}
    (hvalue : Check.value op (some a) value valueOf n = none) :
    Check.value op (some (a.withType wide)) value valueOf n = none := by
  unfold Check.value at hvalue ⊢
  split at hvalue
  case h_1 => cases hvalue
  case h_2 hsources =>
    by_cases hskipped : !Text.blank valueOf || !applies op n
    · rw [if_pos hskipped]
    · rw [if_neg hskipped] at hvalue ⊢
      by_cases hpattern : op.isPattern && Literal.hasOpenRange value
      · rw [if_pos hpattern] at hvalue
        cases hvalue
      · rw [if_neg hpattern] at hvalue ⊢
        -- the inline text of a list has no type of its own
        cases hmulti : op.isMulti with
        | true => simpa [hmulti] using hvalue
        | false => exact literal_withType h (by simpa [hmulti] using hvalue)

theorem valueNodes_withType (h : Relation.TransGen AttributeType.Widens a.type wide)
    {values : List String} (hvalues : valueNodes op (some a) values = []) :
    valueNodes op (some (a.withType wide)) values = [] := by
  rw [valueNodes, List.filterMap_eq_nil_iff] at hvalues ⊢
  exact fun value hmem => literal_withType h (hvalues value hmem)

theorem pendingList_withType (h : Relation.TransGen AttributeType.Widens a.type wide)
    (hvalue : pendingList op (some a) value = []) :
    pendingList op (some (a.withType wide)) value = [] := by
  unfold pendingList at hvalue ⊢
  split at hvalue
  case isTrue hwaits => rw [if_pos hwaits]
  case isFalse hlist =>
    rw [if_neg hlist]
    exact valueNodes_withType h hvalue

end Check

namespace AttributeType

/-- **A literal stays valid when its type is widened**, in one step or in several.  So no value of a
condition, no value node and no value of a pending list is turned away once the attribute has a
wider type. -/
theorem widened_keeps_literals {narrow wide : AttributeType}
    (h : Relation.TransGen Widens narrow wide) :
    (∀ value, Literal.rejection? (some narrow) value = none →
      Literal.rejection? (some wide) value = none) ∧
    ∀ (op : Operator) (a : Attribute), a.type = narrow → ∀ value valueOf values,
      (Check.value op (some a) value valueOf values.length = none →
        Check.value op (some (a.withType wide)) value valueOf values.length = none) ∧
      (Check.valueNodes op (some a) values = [] →
        Check.valueNodes op (some (a.withType wide)) values = []) ∧
      (Check.pendingList op (some a) value = [] →
        Check.pendingList op (some (a.withType wide)) value = []) := by
  refine ⟨fun value => rejection?_of_widens h, ?_⟩
  rintro op a rfl value valueOf values
  exact ⟨Check.value_withType h, Check.valueNodes_withType h, Check.pendingList_withType h⟩

/-- The least number of 64 bits after a run of zeros as a decimal number, and a status as an amount
of money. -/
theorem widened_keeps_literals_of_extremes :
    let least := " -0000009223372036854775808"
    let most := "+2147483647\n"
    Widens bigInt decimal ∧ Literal.rejection? (some bigInt) least = none ∧
      Literal.rejection? (some decimal) least = none ∧
      Relation.TransGen Widens status money ∧ Literal.rejection? (some status) most = none ∧
      Literal.rejection? (some money) most = none := by
  intro least most
  have hdecimal : Widens bigInt decimal := .toDecimal (by decide)
  have hmoney : Relation.TransGen Widens status money :=
    .tail (.single (.toBigInt (by decide))) (.toDecimal (by decide))
  have hleast : Literal.rejection? (some bigInt) least = none := by decide +kernel
  have hmost : Literal.rejection? (some status) most = none := by decide +kernel
  exact ⟨hdecimal, hleast, (widened_keeps_literals (.single hdecimal)).1 _ hleast, hmoney, hmost,
    (widened_keeps_literals hmoney).1 _ hmost⟩

end AttributeType

end QueryEditor
