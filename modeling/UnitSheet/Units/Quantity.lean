/-
This file multiplies and divides quantities.

A quantity is a value in a compound unit. In a product the powers of one family are merged
into the scale of the first operand, so that two metres times fifty centimetres is one
square metre: the value is converted, the exponents are added, and a power whose exponents
cancel is gone.
-/

import UnitSheet.Units.Compound

namespace UnitSheet

/-- A value in a unit. -/
structure Quantity (R : Type) where
  value : R
  unit : CompoundUnit R

namespace CompoundUnit

variable {R : Type} [Scalar R]

/-- The powers in the order of their families, in which two units are merged. -/
def byFamily (unit : CompoundUnit R) : List (UnitPower R) :=
  unit.powers.mergeSort fun first second => decide (first.unit.family ≤ second.unit.family)

/-- Merges two lists of powers in the order of their families. Where both have a power of one
family, `value` is brought from the scale of the second unit to that of the first. -/
def mergePowers (value : R) : List (UnitPower R) → List (UnitPower R) →
    Except (ConversionError R) (R × List (UnitPower R))
  | [], second => .ok (value, second)
  | first, [] => .ok (value, first)
  | left :: lefts, right :: rights =>
    if left.unit.sameFamily right.unit then do
      let value ← right.unit.convert value left.unit right.exponent
      let exponent := left.exponent + right.exponent
      let (value, rest) ← mergePowers value lefts rights
      return (value, if exponent == Scalar.zero then rest else ⟨left.unit, exponent⟩ :: rest)
    else if left.unit.family < right.unit.family then do
      let (value, rest) ← mergePowers value lefts (right :: rights)
      return (value, left :: rest)
    else do
      let (value, rest) ← mergePowers value (left :: lefts) rights
      return (value, right :: rest)
termination_by first second => first.length + second.length

end CompoundUnit

namespace Quantity

variable {R : Type} [Scalar R]

/-- The product of two quantities, in the scales of the first. -/
def multiply (first second : Quantity R) : Except (ConversionError R) (Quantity R) := do
  let (value, powers) ← CompoundUnit.mergePowers (first.value * second.value)
    first.unit.byFamily second.unit.byFamily
  return ⟨value, CompoundUnit.canonical ⟨powers⟩⟩

/-- The quotient of two quantities, in the scales of the first: the product with the
reciprocal. -/
def divide (first second : Quantity R) : Except (ConversionError R) (Quantity R) :=
  if second.value == Scalar.zero then .error (.arithmetic .zeroDivisor)
  else do
    let reciprocal ← (Scalar.divide Scalar.one second.value).mapError .arithmetic
    first.multiply ⟨reciprocal, second.unit.power (-Scalar.one)⟩

/-- A quantity in another unit. -/
def convert (quantity : Quantity R) (target : CompoundUnit R) :
    Except (ConversionError R) (Quantity R) := do
  return ⟨← quantity.unit.convert quantity.value target, target⟩

end Quantity

end UnitSheet
