/-
This file holds the operations on floating-point values that can fail.

Sums, products and quotients are the rounded ones of the hardware. Powers, roots,
logarithms and the trigonometric functions are those of the mathematical library behind
explicit conditions on their arguments. Rounding to an integer is exact: it is computed on
the exact form of the number.
-/

import UnitSheet.Arithmetic.Scalar
import UnitSheet.Decimal.Binary

namespace UnitSheet.Floating

open Decimal (classify)

/-- The half of a full turn, and the constant of that name. -/
def pi : Float := 3.141592653589793

/-- The base of the natural logarithm. -/
def e : Float := 2.718281828459045

/-- Whether a value is an integer. Infinite and undefined values are not. -/
def isInteger (value : Float) : Bool :=
  match classify value with
  | .finite exact => exact.fractionUp == 0
  | _ => false

/-- The quotient by the scale of a unit. -/
def divide (dividend divisor : Float) : Except ArithmeticError Float :=
  if divisor == 0 then .error .zeroScale else .ok (dividend / divisor)

/-! ### Powers -/

/-- The power of a scale. With an infinite or undefined operand it is never refused; a finite
result never comes from finite operands by overflow. -/
def scalePower (base exponent : Float) : Except ArithmeticError Float :=
  if base.isFinite && exponent.isFinite then
    if base == 0 && exponent < 0 then .error .zeroToNegativePower
    else if base < 0 && !isInteger exponent then .error .negativeToFractionalPower
    else
      let result := base.pow exponent
      if result.isInf then .error .scaleOutOfRange else .ok result
  else .ok (base.pow exponent)

/-- The power of a value. -/
def valuePower (base exponent : Float) : Except ArithmeticError Float :=
  if base.isFinite && exponent.isFinite then
    if base == 0 && exponent < 0 then .error .outsideDomain
    else
      let result := base.pow exponent
      if result.isNaN then .error .outsideDomain
      else if result.isInf then .error .powerOutOfRange
      else .ok result
  else .ok (base.pow exponent)

/-! ### Roots, logarithms and trigonometric functions -/

/-- The square root, of values that are not below zero. -/
def squareRoot (value : Float) : Except ArithmeticError Float :=
  if value < 0 then .error .outsideDomain else .ok value.sqrt

/-- A logarithm, of values above zero. -/
def logarithm (function : Float → Float) (value : Float) : Except ArithmeticError Float :=
  if value ≤ 0 then .error .outsideDomain else .ok (function value)

/-- A trigonometric function, of values that are not infinite. -/
def trigonometric (function : Float → Float) (value : Float) : Except ArithmeticError Float :=
  if value.isInf then .error .outsideDomain else .ok (function value)

/-! ### Rounding to integers -/

/-- A number computed from the exact form of a finite value. -/
def ofExact (function : Decimal.Binary → Float) (value : Float) : Except ArithmeticError Float :=
  match classify value with
  | .finite exact => .ok (function exact)
  | .infinite _ => .error .infiniteInteger
  | .undefined => .error .undefinedInteger

/-- The greatest integer that is not above the value. -/
def floor : Float → Except ArithmeticError Float :=
  ofExact fun exact => Float.ofInt exact.floor

/-- The least integer that is not below the value. -/
def ceil : Float → Except ArithmeticError Float :=
  ofExact fun exact => Float.ofInt exact.ceil

/-- The nearest integer; a half goes away from zero, and zero keeps the sign of the value. -/
def round : Float → Except ArithmeticError Float :=
  ofExact fun exact =>
    let magnitude := Float.ofNat (exact.whole + exact.halfUp)
    if exact.negative then -magnitude else magnitude

/-- Floating-point values are scalars. -/
instance : Scalar Float where
  zero := 0
  one := 1
  isNegative exponent := exponent < 0
  divide := divide
  power := scalePower

end UnitSheet.Floating
