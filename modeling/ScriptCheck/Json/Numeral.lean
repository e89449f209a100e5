/-
  Numbers as JSON writes them.

  A number that is no plain row of digits is held as a double. It is put
  together from a significand of at most 64 bits and a power of ten: digits
  beyond those that fit are left out, the significand and the power are each
  rounded to a double, and so is their product. The result may therefore pass
  the largest double although the number that is written does not.
-/

namespace ScriptCheck.Json

/-- A number as it is written: `whole.fraction × 10 ^ exponent`, with a sign in front. -/
structure Numeral where
  negative : Bool
  whole : List Char
  fraction : List Char
  exponent : Option Int
deriving Repr

namespace Numeral

/-! ## Digits -/

/-- The number that one more digit makes of the number before it. -/
def withDigit (n : Nat) (d : Char) : Nat := 10 * n + (d.toNat - 48)

/-- The number that decimal digits write. -/
def valueOf (digits : List Char) : Nat := digits.foldl withDigit 0

/-- The largest number of 64 bits. -/
def word64 : Nat := 0xFFFFFFFFFFFFFFFF

/-- Adds digits to a significand until the next one would take it past 64 bits. Returns the digits
    left out too. -/
def gather : Nat → List Char → Nat × List Char
  | n, [] => (n, [])
  | n, d :: rest => if withDigit n d ≤ word64 then gather (withDigit n d) rest else (n, d :: rest)

/-- The significand, and the power of ten that goes with it. A digit left out of the whole part
    raises the power, one taken from the fraction lowers it. -/
def scaled (n : Numeral) : Nat × Int :=
  let (whole, wholeLeft) := gather 0 n.whole
  let (significand, fractionLeft) := gather whole n.fraction
  let taken := n.fraction.length - fractionLeft.length
  (significand, n.exponent.getD 0 + wholeLeft.length - taken)

/-! ## Doubles -/

/-- The nearest number of 53 significant bits; of two that are equally near, the even one. -/
def nearestDouble (n : Nat) : Nat :=
  let unit := Nat.pow 2 (n.log2 - 52)
  let below := n / unit
  let rest := n % unit
  if 2 * rest > unit || (2 * rest = unit && below % 2 = 1) then (below + 1) * unit
  else below * unit

/-- The least number that lies as near to `2 ^ 1024` as to the largest double. -/
def overflow : Nat := (Nat.pow 2 54 - 1) * Nat.pow 2 970

/-- Whether the number is too large for a double. -/
def isHuge (n : Numeral) : Bool :=
  let (significand, power) := n.scaled
  if significand = 0 || power < 0 then false
  else if power > 308 then true
  else nearestDouble significand * nearestDouble (Nat.pow 10 power.toNat) ≥ overflow

/-- The largest double is not too large, and the number one up in its last digit is. -/
example : isHuge ⟨false, ['1'], "7976931348623157".toList, some 308⟩ = false ∧
    isHuge ⟨false, ['1'], "7976931348623158".toList, some 308⟩ = true := by decide +kernel

/-- The natural number of at most 64 bits that a plain row of digits stands for. -/
def natural? (n : Numeral) : Option Nat :=
  if n.negative || !n.fraction.isEmpty || n.exponent.isSome then none
  else if valueOf n.whole ≤ word64 then some (valueOf n.whole)
  else none

end Numeral

end ScriptCheck.Json
