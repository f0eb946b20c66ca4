/-
This file finds the fewest digits that identify a floating-point number.

A `Numeral` is a natural number times a power of ten, and its value is the floating-point
number nearest to it. `shortest` looks at the numerals of one digit, of two digits and so
on next to a number, and takes the first whose value is that number: of two on the same
grid the nearer one, and of two equally near ones the even one. Seventeen digits are always
enough.
-/

import UnitSheet.Decimal.Binary

namespace UnitSheet.Decimal

/-- The number `digits * 10 ^ exponent`. -/
structure Numeral where
  digits : Nat
  exponent : Int
  deriving DecidableEq

namespace Numeral

/-- One more than the exponent of the leading digit; for zero, just the exponent. -/
def magnitude (numeral : Numeral) : Int :=
  (if numeral.digits = 0 then 0 else (Nat.toDigits 10 numeral.digits).length) + numeral.exponent

/-- The nearest floating-point number. Decimals above `10 ^ 310` are beyond the greatest one
and decimals below `10 ^ -330` are less than half of the least one, so neither is computed. -/
def value (numeral : Numeral) : Float :=
  if numeral.digits = 0 ∨ numeral.magnitude < -330 then 0
  else if 310 < numeral.magnitude then 1 / 0
  else if numeral.exponent < 0 then
    Float.ofScientific numeral.digits true (-numeral.exponent).toNat
  else Float.ofScientific numeral.digits false numeral.exponent.toNat

end Numeral

namespace Binary

/-- The exponent of the leading decimal digit of a magnitude that is not zero. No magnitude is
below `10 ^ -324`, so scaling by `10 ^ 400` leaves a whole number to count digits of. -/
def leadingDigit (exact : Binary) : Int :=
  ((Nat.toDigits 10 (exact.numerator * tenTo 400 / exact.denominator)).length : Int) - 401

/-- The two numerals of `count` digits next to a magnitude, the better one first. -/
def neighbours (exact : Binary) (count : Nat) : List Numeral :=
  let exponent := exact.leadingDigit - count + 1
  let numerator := exact.numerator * tenTo (-exponent).toNat
  let denominator := exact.denominator * tenTo exponent.toNat
  let below := numerator / denominator
  let excess := 2 * (numerator % denominator)
  if excess < denominator ∨ (excess = denominator ∧ below % 2 = 0) then
    [⟨below, exponent⟩, ⟨below + 1, exponent⟩]
  else [⟨below + 1, exponent⟩, ⟨below, exponent⟩]

end Binary

/-- The first numeral of least length whose value is the magnitude of the number. -/
def shortest? (number : Float) (exact : Binary) : Option Numeral :=
  (List.range 17).findSome? fun index =>
    (exact.neighbours (index + 1)).find? fun numeral => numeral.value == number.abs

/-- All the decimal digits of a magnitude: a half is five tenths, so a power of two below one
turns into as many powers of five. -/
def Binary.allDigits (exact : Binary) : Numeral :=
  ⟨exact.numerator * Nat.pow 5 (-exact.exponent).toNat, -(-exact.exponent).toNat⟩

/-- The shortest numeral of a finite number. -/
def shortest (number : Float) (exact : Binary) : Numeral :=
  if exact.significand = 0 then ⟨0, 0⟩
  else (shortest? number exact).getD exact.allDigits

/-- What `shortest?` finds reads back as the magnitude of the number. -/
theorem value_of_shortest? {number : Float} {exact : Binary} {numeral : Numeral}
    (found : shortest? number exact = some numeral) : (numeral.value == number.abs) = true := by
  obtain ⟨_, _, hit⟩ := List.exists_of_findSome?_eq_some found
  have reads := List.find?_some hit
  exact reads

end UnitSheet.Decimal
