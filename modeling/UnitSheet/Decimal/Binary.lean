/-
This file takes a floating-point number apart and finds the one nearest to a quotient.

A finite number is, exactly, a sign, a natural number and a power of two; `classify` reads
these off the sixty-four bits. What the library says about the digits of a number, its
whole part or its fraction starts from this exact form, never from floating-point
arithmetic. `Binary.nearest` goes the other way: it rounds a quotient to the fifty-three
bits that a number has room for.
-/

import UnitSheet.Decimal.Rounding

namespace UnitSheet.Decimal

/-- An exact finite number: `significand * 2 ^ exponent`, negated if `negative`. -/
structure Binary where
  negative : Bool
  significand : Nat
  exponent : Int
  deriving DecidableEq

/-- What the bits of a floating-point number say. -/
inductive FloatClass where
  | finite (exact : Binary)
  | infinite (negative : Bool)
  | undefined
  deriving DecidableEq

/-- The bits of a floating-point number: one for the sign, eleven for the exponent, fifty-two
for the significand, whose leading bit is implied unless the exponent field is zero. -/
def classify (number : Float) : FloatClass :=
  let bits : Nat := number.toBits.toNat
  let negative := decide (twoTo 63 ≤ bits)
  let field : Nat := bits / twoTo 52 % twoTo 11
  let fraction : Nat := bits % twoTo 52
  if field = 2047 then
    if fraction = 0 then .infinite negative else .undefined
  else if field = 0 then .finite ⟨negative, fraction, -1074⟩
  else .finite ⟨negative, twoTo 52 + fraction, (field : Int) - 1075⟩

namespace Binary

/-- The numerator of the magnitude over `denominator`. -/
def numerator (exact : Binary) : Nat :=
  exact.significand * twoTo exact.exponent.toNat

/-- The denominator of the magnitude, a power of two. -/
def denominator (exact : Binary) : Nat :=
  twoTo (-exact.exponent).toNat

/-- The denominator is never zero. -/
theorem denominator_pos (exact : Binary) : 0 < exact.denominator :=
  twoTo_pos _

/-! ### Whole part and fraction -/

/-- The whole part of the magnitude. -/
def whole (exact : Binary) : Nat :=
  exact.numerator / exact.denominator

/-- One if the magnitude has a fractional part, else zero. -/
def fractionUp (exact : Binary) : Nat :=
  if exact.numerator % exact.denominator = 0 then 0 else 1

/-- One if the fractional part of the magnitude is at least one half, else zero. -/
def halfUp (exact : Binary) : Nat :=
  if exact.denominator ≤ 2 * (exact.numerator % exact.denominator) then 1 else 0

/-- The greatest integer that is not above the number. -/
def floor (exact : Binary) : Int :=
  if exact.negative then -((exact.whole + exact.fractionUp : Nat) : Int) else exact.whole

/-- The least integer that is not below the number. -/
def ceil (exact : Binary) : Int :=
  if exact.negative then -(exact.whole : Int) else (exact.whole + exact.fractionUp : Nat)

/-! ### The nearest floating-point number -/

/-- The exponent of the leading bit of a positive quotient. -/
def leadingBit (numerator denominator : Nat) : Int :=
  let estimate := (numerator.log2 : Int) - denominator.log2
  if numerator * twoTo (-estimate).toNat < denominator * twoTo estimate.toNat then estimate - 1
  else estimate

/-- The number with at most fifty-three bits, none of them below `2 ^ -1074`, that is nearest to
a quotient; of two equally near ones it is the one whose significand is even. -/
def nearest (negative : Bool) (numerator denominator : Nat) : Binary :=
  let exponent := max (-1074) (leadingBit numerator denominator - 52)
  ⟨negative,
    roundHalfEven (numerator * twoTo (-exponent).toNat) (denominator * twoTo exponent.toNat),
    exponent⟩

/-- The multiple of a decimal unit nearest to the magnitude, counted in that unit, which is
`10 ^ -places`; a tie goes to the even multiple. -/
def decimalUnits (exact : Binary) (places : Nat) : Nat :=
  roundHalfEven (exact.numerator * tenTo places) exact.denominator

/-- The number rounded to a count of decimal places, as far as its own form can hold the
decimal. -/
def roundedTo (exact : Binary) (places : Nat) : Binary :=
  nearest exact.negative (exact.decimalUnits places) (tenTo places)

end Binary

end UnitSheet.Decimal
