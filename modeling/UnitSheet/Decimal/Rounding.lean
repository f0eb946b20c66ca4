/-
This file rounds a quotient of natural numbers to a natural number, and holds the powers of two,
in which the bits of numbers are counted, and the powers of ten, in which their digits are.

`roundHalfEven` takes the nearest number, and of two equally near ones the even one.
`roundHalfEven_near` says that the result is within half of the exact quotient, and
`roundHalfEven_tie` that a tie is even.
-/

namespace UnitSheet.Decimal

/-! ### Powers -/

/-- A power of two. -/
def twoTo (exponent : Nat) : Nat :=
  Nat.pow 2 exponent

/-- A power of ten. -/
def tenTo (exponent : Nat) : Nat :=
  Nat.pow 10 exponent

/-- No power of two is zero. -/
theorem twoTo_pos (exponent : Nat) : 0 < twoTo exponent :=
  Nat.pow_pos (by decide)

/-- No power of ten is zero. -/
theorem tenTo_pos (exponent : Nat) : 0 < tenTo exponent :=
  Nat.pow_pos (by decide)

/-! ### Rounding -/

/-- The natural number nearest to a quotient; a tie goes to the even neighbour. -/
def roundHalfEven (numerator denominator : Nat) : Nat :=
  let below := numerator / denominator
  let excess := 2 * (numerator % denominator)
  if excess < denominator then below
  else if denominator < excess then below + 1
  else if below % 2 = 0 then below
  else below + 1

/-- The rounded quotient is within half of the exact one. -/
theorem roundHalfEven_near (numerator denominator : Nat) (positive : 0 < denominator) :
    2 * (roundHalfEven numerator denominator * denominator) ≤ 2 * numerator + denominator ∧
      2 * numerator ≤ 2 * (roundHalfEven numerator denominator * denominator) + denominator := by
  have split := Nat.div_add_mod numerator denominator
  have small := Nat.mod_lt numerator positive
  have exchange : denominator * (numerator / denominator) =
      numerator / denominator * denominator := Nat.mul_comm _ _
  unfold roundHalfEven
  dsimp only
  split
  · omega
  · split
    · rw [Nat.add_mul]; omega
    · split
      · omega
      · rw [Nat.add_mul]; omega

/-- A quotient in the middle between two numbers goes to the even one. -/
theorem roundHalfEven_tie (numerator denominator : Nat) (positive : 0 < denominator)
    (tie : 2 * (roundHalfEven numerator denominator * denominator) = 2 * numerator + denominator ∨
      2 * numerator = 2 * (roundHalfEven numerator denominator * denominator) + denominator) :
    roundHalfEven numerator denominator % 2 = 0 := by
  have split := Nat.div_add_mod numerator denominator
  have small := Nat.mod_lt numerator positive
  have exchange : denominator * (numerator / denominator) =
      numerator / denominator * denominator := Nat.mul_comm _ _
  unfold roundHalfEven at tie ⊢
  dsimp only at tie ⊢
  by_cases middle : 2 * (numerator % denominator) = denominator
  · rw [middle, if_neg (Nat.lt_irrefl _), if_neg (Nat.lt_irrefl _)]
    split
    · assumption
    · omega
  · exfalso
    split at tie
    · omega
    · rw [if_pos (by omega), Nat.add_mul] at tie
      omega

end UnitSheet.Decimal
