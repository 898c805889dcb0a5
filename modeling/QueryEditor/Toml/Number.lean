import QueryEditor.Guid

/-!
# Numbers in TOML

A number is whole and fits into 64 bits, or it has a fraction, an exponent or both, or it is one
of the special ones.  Digits may have single underscores between them.  A positive number with a
fraction or an exponent that double precision would round to infinity is no number.
-/

namespace QueryEditor

namespace Toml

/-- Drops a sign, if there is one. -/
def skipSign : List Char → List Char
  | '+' :: cs => cs
  | '-' :: cs => cs
  | cs => cs

/-! ### Digits -/

/-- Digits with single underscores between them. -/
def areDigits (isDigit : Char → Bool) (cs : List Char) : Bool :=
  (cs.splitOn '_').all fun piece => !piece.isEmpty && piece.all isDigit

/-- Digits without a leading zero, other than zero itself. -/
def isWhole (cs : List Char) : Bool :=
  areDigits Char.isDigit cs && (cs.head? != some '0' || cs.length == 1)

/-- The value of digits in some base. -/
def valueIn (base : Nat) (cs : List Char) : Nat :=
  (cs.filterMap Guid.hexDigit?).foldl (fun n d => base * n + d) 0

/-! ### Whole numbers -/

/-- Whether a run is a whole number of 64 bits. -/
def isInteger (cs : List Char) : Bool :=
  match cs with
  | '0' :: 'x' :: ds => areDigits (fun c => (Guid.hexDigit? c).isSome) ds && fits 16 ds
  | '0' :: 'o' :: ds => areDigits (fun c => '0' ≤ c && c ≤ '7') ds && fits 8 ds
  | '0' :: 'b' :: ds => areDigits (fun c => c == '0' || c == '1') ds && fits 2 ds
  | '-' :: ds => isWhole ds && valueIn 10 ds ≤ 1 <<< 63
  | _ => isWhole (skipSign cs) && fits 10 (skipSign cs)
where
  /-- Whether the value of digits is below the bound. -/
  fits (base : Nat) (ds : List Char) : Bool := valueIn base ds < 1 <<< 63

/-! ### Scientific numerals -/

/-- The digits of a number before and after the point, and its exponent. -/
structure Scientific where
  whole : List Char
  fraction : List Char := []
  exponent : Int := 0

namespace Scientific

/-- Reads the digits of an exponent after its sign. -/
def exponent? : List Char → Option Int
  | '-' :: ds => if areDigits Char.isDigit ds then some (-(valueIn 10 ds : Int)) else none
  | cs =>
    if areDigits Char.isDigit (skipSign cs) then some (valueIn 10 (skipSign cs) : Int) else none

/-- Reads the exponent after a number, with its mark. -/
def withExponent? (s : Scientific) : List Char → Option Scientific
  | 'e' :: cs => (exponent? cs).map fun e => { s with exponent := e }
  | 'E' :: cs => (exponent? cs).map fun e => { s with exponent := e }
  | _ => none

/-- Reads a number without a sign that has a fraction, an exponent or both. -/
def read? (cs : List Char) : Option Scientific :=
  let (whole, rest) := cs.span isDigitOrMark
  if !isWhole whole then none
  else match rest with
    | '.' :: rest =>
      let (fraction, rest) := rest.span isDigitOrMark
      if !areDigits Char.isDigit fraction then none
      else if rest.isEmpty then some { whole, fraction }
      else withExponent? { whole, fraction } rest
    | rest => withExponent? { whole } rest
where
  /-- Whether a character may stand among digits. -/
  isDigitOrMark (c : Char) : Bool := c.isDigit || c == '_'

/-- The least value that double precision rounds to infinity. -/
def infinityBound : Nat := (1 <<< 1024) - (1 <<< 970)

/-- The number of digits of `infinityBound`. -/
def infinityPlaces : Nat := 309

/-- Whether `mantissa`, which has `count` digits, times ten to the `exponent` reaches the bound
of infinity.  Powers are taken only where the number of places leaves it open. -/
def reachesInfinity (mantissa count : Nat) (exponent : Int) : Bool :=
  let places := exponent + count
  if mantissa = 0 ∨ places < infinityPlaces then false
  else if infinityPlaces < places then true
  else infinityBound * Nat.pow 10 count ≤ mantissa * Nat.pow 10 infinityPlaces

/-- Whether double precision rounds the number to infinity. -/
def overflows (s : Scientific) : Bool :=
  let digits := (s.whole ++ s.fraction).filter Char.isDigit
  reachesInfinity (valueIn 10 digits) (digits.dropWhile (· == '0')).length
    (s.exponent - (s.fraction.filter Char.isDigit).length)

end Scientific

/-- Whether a run is a number with a fraction or an exponent, or one of the special ones. -/
def isFloat (cs : List Char) : Bool :=
  let size := skipSign cs
  size == "inf".toList || size == "nan".toList ||
    match Scientific.read? size with
    | some s => cs.head? == some '-' || !s.overflows
    | none => false

/-- Whether a run is a number. -/
def isNumber (cs : List Char) : Bool := isInteger cs || isFloat cs

end Toml

end QueryEditor
