/-!
# Whole numbers in text

A numeral is an optional sign and at least one ASCII digit, with any number of leading zeros.
The readers `Numeral.int32?`, `Numeral.int64?` and `Numeral.uint32?` accept a numeral whose
value fits; an unsigned one has no minus sign, not even before zero.
-/

namespace QueryEditor

namespace Numeral

/-- The value of an ASCII digit. -/
def digit? (c : Char) : Option Nat :=
  if '0' ≤ c ∧ c ≤ '9' then some (c.toNat - '0'.toNat) else none

/-- Reads digits after those that make up `n`. -/
def continueFrom? (n : Nat) : List Char → Option Nat
  | [] => some n
  | c :: cs => (digit? c).bind fun d => continueFrom? (10 * n + d) cs

/-- Reads one or more digits. -/
def natural? : List Char → Option Nat
  | [] => none
  | cs => continueFrom? 0 cs

/-- Reads digits after an optional plus sign. -/
def unsigned? : List Char → Option Nat
  | '+' :: cs => natural? cs
  | cs => natural? cs

/-- Reads digits after an optional sign. -/
def signed? : List Char → Option Int
  | '-' :: cs => (natural? cs).map fun n => -(n : Int)
  | cs => (unsigned? cs).map fun n => (n : Int)

/-- Reads a numeral of an unsigned 32-bit number. -/
def uint32? (cs : List Char) : Option UInt32 :=
  (unsigned? cs).bind fun n => if n < UInt32.size then some (UInt32.ofNat n) else none

/-- Narrows a number to 32 bits, if it fits. -/
def narrow32? (n : Int) : Option Int32 :=
  if Int32.minValue.toInt ≤ n ∧ n ≤ Int32.maxValue.toInt then some (Int32.ofInt n) else none

/-- Reads a numeral of a signed 32-bit number. -/
def int32? (cs : List Char) : Option Int32 := (signed? cs).bind narrow32?

/-- Reads a numeral of a signed 64-bit number. -/
def int64? (cs : List Char) : Option Int64 :=
  (signed? cs).bind fun n =>
    if Int64.minValue.toInt ≤ n ∧ n ≤ Int64.maxValue.toInt then some (Int64.ofInt n) else none

/-- The decimal numeral of a signed 32-bit number. -/
def ofInt32 (n : Int32) : String := toString n.toInt

/-- The decimal numeral of an unsigned 32-bit number. -/
def ofUInt32 (n : UInt32) : String := toString n.toNat

end Numeral

end QueryEditor
