/-
This file says what the unit algebra needs of the numbers it computes with.

A `Scalar` has sums, products and negation without conditions, and quotients and powers that
may fail for a stated cause. Documents are evaluated with floating-point numbers; the same
algebra over another scalar, such as the rational numbers, says what it computes when no
rounding happens.
-/

namespace UnitSheet

/-- Why an arithmetic operation has no result. -/
inductive ArithmeticError where
  /-- The divisor of a quantity is zero. -/
  | zeroDivisor
  /-- The scale of a unit has become zero and something is divided by it. -/
  | zeroScale
  /-- Zero is raised to a negative power. -/
  | zeroToNegativePower
  /-- The scale of a negative unit has no power with a fractional exponent. -/
  | negativeToFractionalPower
  /-- The power of a scale is too large. -/
  | scaleOutOfRange
  /-- The power of a value is too large. -/
  | powerOutOfRange
  /-- A function is not defined at the value. -/
  | outsideDomain
  /-- An infinite value has no integer part. -/
  | infiniteInteger
  /-- An undefined value has no integer part. -/
  | undefinedInteger
  deriving DecidableEq

namespace ArithmeticError

/-- The words for a cause. -/
def message : ArithmeticError → String
  | zeroDivisor => "division by zero"
  | zeroScale => "float division by zero"
  | zeroToNegativePower => "0.0 cannot be raised to a negative power"
  | negativeToFractionalPower => "math domain error"
  | scaleOutOfRange => "(34, 'Numerical result out of range')"
  | powerOutOfRange => "math range error"
  | outsideDomain => "math domain error"
  | infiniteInteger => "cannot convert float infinity to integer"
  | undefinedInteger => "cannot convert float NaN to integer"

/-- Whether the cause is a zero in the place of a divisor. -/
def isDivisionByZero : ArithmeticError → Bool
  | zeroDivisor | zeroScale | zeroToNegativePower => true
  | _ => false

end ArithmeticError

/-- Numbers that values, scales and exponents can be. The comparison with zero that drops an
exponent is `==`, and `isNegative` decides on which side of the division bar it is written. -/
class Scalar (R : Type) extends Add R, Sub R, Mul R, Neg R, BEq R where
  zero : R
  one : R
  isNegative : R → Bool
  /-- The quotient by a scale. -/
  divide : R → R → Except ArithmeticError R
  /-- The power of a scale. -/
  power : R → R → Except ArithmeticError R

end UnitSheet
