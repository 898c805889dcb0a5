import QueryEditor.Text.Numeral

/-!
# Decimal numerals

A decimal number is a mantissa below 2^96 with at most 28 decimal places.  The integer part of a
numeral must fit; fraction digits that do not are rounded away, a half going up.  Underscores
may stand anywhere after the first digit.  `DecimalNumeral.accepts` says which texts are
numerals, with or without an exponent.
-/

namespace QueryEditor

/-- The size of a decimal number, sign apart: `mantissa` divided by ten to the `places`. -/
structure DecimalNumeral where
  mantissa : Nat
  places : Nat
  deriving DecidableEq, Repr

namespace DecimalNumeral

open Numeral (digit?)

/-- Mantissas, of 96 bits, stay below this bound. -/
def mantissaBound : Nat := 1 <<< 96

/-- The most decimal places, and the largest exponent. -/
def maxPlaces : Nat := 28

/-- Takes account of the first digit that does not fit: a half goes up, and a mantissa that
has no room for it gives up its last place. -/
def roundAt? (d : DecimalNumeral) (digit : Nat) : Option DecimalNumeral :=
  if digit < 5 then some d
  else if d.mantissa + 1 < mantissaBound then some { d with mantissa := d.mantissa + 1 }
  else if d.places = 0 then none
  else some ⟨(d.mantissa + 5) / 10, d.places - 1⟩

/-- A character that may stand among the digits that are rounded away. -/
def isFiller (c : Char) : Bool := c == '_' || (digit? c).isSome

/-- Reads digits after the point. -/
def fraction? (d : DecimalNumeral) : List Char → Option DecimalNumeral
  | [] => some d
  | c :: cs =>
    if c = '_' then fraction? d cs
    else (digit? c).bind fun v =>
      if d.places < maxPlaces ∧ 10 * d.mantissa + v < mantissaBound then
        fraction? ⟨10 * d.mantissa + v, d.places + 1⟩ cs
      else if cs.all isFiller then d.roundAt? v
      else none

/-- Reads digits before the point, and the fraction if there is one. -/
def whole? (n : Nat) : List Char → Option DecimalNumeral
  | [] => some ⟨n, 0⟩
  | c :: cs =>
    if c = '_' then whole? n cs
    else if c = '.' then fraction? ⟨n, 0⟩ cs
    else (digit? c).bind fun v =>
      if 10 * n + v < mantissaBound then whole? (10 * n + v) cs else none

/-- Reads a numeral without a sign, which starts with a digit or with a point and a digit. -/
def unsigned? : List Char → Option DecimalNumeral
  | [] => none
  | c :: cs =>
    if c = '.' then
      if (cs.head?.bind digit?).isSome then fraction? ⟨0, 0⟩ cs else none
    else if (digit? c).isSome then whole? 0 (c :: cs)
    else none

/-- Reads a numeral without an exponent. -/
def plain? : List Char → Option DecimalNumeral
  | '+' :: cs => unsigned? cs
  | '-' :: cs => unsigned? cs
  | cs => unsigned? cs

/-- Whether the number, scaled by the power of ten that `exponent` writes, is in range. -/
def scales (d : DecimalNumeral) : List Char → Bool
  | '-' :: cs => match Numeral.uint32? cs with
    | some e => e.toNat ≤ maxPlaces
    | none => false
  | cs => match Numeral.uint32? cs with
    | some e => e.toNat ≤ d.places ||
        (e.toNat ≤ maxPlaces && d.mantissa * Nat.pow 10 (e.toNat - d.places) < mantissaBound)
    | none => false

/-- The mark between a numeral and its exponent. -/
def isExponentMark (c : Char) : Bool := c == 'e' || c == 'E'

/-- Whether a text is a numeral and, after the first mark, an exponent it can take. -/
def acceptsScaled (cs : List Char) : Bool :=
  match cs.dropWhile (!isExponentMark ·) with
  | [] => false
  | _ :: exponent => match plain? (cs.takeWhile (!isExponentMark ·)) with
    | some d => d.scales exponent
    | none => false

/-- Whether a text is a decimal numeral. -/
def accepts (cs : List Char) : Bool := (plain? cs).isSome || acceptsScaled cs

end DecimalNumeral

end QueryEditor
