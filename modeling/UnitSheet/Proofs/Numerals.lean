/-
This file says which floating-point number a numeral stands for.

The value of a numeral is the number nearest to it, also where it is so great or so small that it is
not computed (`Numeral.rounds_value`); so it depends on what the numeral says exactly, and not on
how. Taking a number apart by its bits says exactly what the number is, and the shortest numeral of
a number has the magnitude of that number for its value.
-/

import UnitSheet.Decimal.Shortest
import UnitSheet.Proofs.Scientific

namespace UnitSheet

open Floating (Rounds Holds)

namespace Decimal

namespace Numeral

/-! ### The value of a numeral -/

/-- What a numeral says exactly. -/
def rational (numeral : Numeral) : ℚ :=
  numeral.digits * (10 : ℚ) ^ numeral.exponent

theorem rational_eq_zero_iff {numeral : Numeral} :
    numeral.rational = 0 ↔ numeral.digits = 0 := by
  rw [rational, mul_eq_zero, Nat.cast_eq_zero, or_iff_left]
  exact zpow_ne_zero _ (by norm_num)

theorem rational_pos {numeral : Numeral} (some : numeral.digits ≠ 0) : 0 < numeral.rational :=
  lt_of_le_of_ne (mul_nonneg (Nat.cast_nonneg _) (zpow_pos (by norm_num) _).le)
    (Ne.symm (rational_eq_zero_iff.not.mpr some))

theorem magnitude_of_some {numeral : Numeral} (some : numeral.digits ≠ 0) :
    numeral.magnitude = (Nat.toDigits 10 numeral.digits).length + numeral.exponent := by
  rw [magnitude, if_neg some]

theorem length_toDigits_bounds {number : ℕ} (some : number ≠ 0) :
    10 ^ ((Nat.toDigits 10 number).length - 1) ≤ number ∧
      number < 10 ^ (Nat.toDigits 10 number).length := by
  have positive : 0 < (Nat.toDigits 10 number).length := Nat.length_toDigits_pos
  refine ⟨?_, (Nat.length_toDigits_le_iff (by decide) positive).mp le_rfl⟩
  rcases Nat.eq_zero_or_pos ((Nat.toDigits 10 number).length - 1) with none | more
  · rw [none]
    omega
  · by_contra below
    have short := (Nat.length_toDigits_le_iff (by decide) more).mpr (not_le.mp below)
    omega

/-- A numeral lies between the powers of ten that its magnitude says. -/
theorem rational_bounds {numeral : Numeral} (some : numeral.digits ≠ 0) :
    (10 : ℚ) ^ (numeral.magnitude - 1) ≤ numeral.rational ∧
      numeral.rational < (10 : ℚ) ^ numeral.magnitude := by
  obtain ⟨lower, upper⟩ := length_toDigits_bounds some
  have positive : 0 < (Nat.toDigits 10 numeral.digits).length := Nat.length_toDigits_pos
  have power : (0 : ℚ) < 10 ^ numeral.exponent := zpow_pos (by norm_num) _
  have ten : (10 : ℚ) ≠ 0 := by norm_num
  rw [magnitude_of_some some, rational]
  generalize (Nat.toDigits 10 numeral.digits).length = length at *
  constructor
  · have split : (length : ℤ) + numeral.exponent - 1 =
        ((length - 1 : ℕ) : ℤ) + numeral.exponent := by omega
    rw [split, zpow_add₀ ten, zpow_natCast]
    refine mul_le_mul_of_nonneg_right ?_ power.le
    exact_mod_cast lower
  · rw [zpow_add₀ ten, zpow_natCast]
    refine mul_lt_mul_of_pos_right ?_ power
    exact_mod_cast upper

theorem ten_zpow_le : (10 : ℚ) ^ (-330 : ℤ) ≤ 2 ^ (-1075 : ℤ) := by
  have powers : 2 ^ 1075 ≤ 10 ^ 330 := by decide +kernel
  have tiny : (10 : ℚ) ^ (-330 : ℤ) = (((10 ^ 330 : ℕ) : ℚ))⁻¹ := by
    rw [zpow_neg, Nat.cast_pow, Nat.cast_ofNat]
    exact congrArg _ (zpow_natCast 10 330)
  have half : (2 : ℚ) ^ (-1075 : ℤ) = (((2 ^ 1075 : ℕ) : ℚ))⁻¹ := by
    rw [zpow_neg, Nat.cast_pow, Nat.cast_ofNat]
    exact congrArg _ (zpow_natCast 2 1075)
  rw [tiny, half]
  exact inv_anti₀ (by positivity) (Nat.cast_le.mpr powers)

theorem le_ten_zpow : (2 : ℚ) ^ (1024 : ℤ) ≤ 10 ^ (310 : ℤ) := by
  have powers : 2 ^ 1024 ≤ 10 ^ 310 := by decide +kernel
  have great : (2 : ℚ) ^ (1024 : ℤ) = ((2 ^ 1024 : ℕ) : ℚ) := by
    rw [Nat.cast_pow, Nat.cast_ofNat]
    exact zpow_natCast 2 1024
  have huge : (10 : ℚ) ^ (310 : ℤ) = ((10 ^ 310 : ℕ) : ℚ) := by
    rw [Nat.cast_pow, Nat.cast_ofNat]
    exact zpow_natCast 10 310
  rw [great, huge]
  exact Nat.cast_le.mpr powers

/-- The value of a numeral is the number nearest to it, also where it is not computed. -/
theorem rounds_value {numeral : Numeral} (some : numeral.digits ≠ 0) :
    Rounds .positive numeral.rational numeral.value := by
  obtain ⟨lower, upper⟩ := rational_bounds some
  have digits : (Nat.toDigits 10 numeral.digits).length ≤ numeral.digits.log2 + 1 := by
    refine (Nat.length_toDigits_le_iff (by decide) (Nat.succ_pos _)).mpr ?_
    exact lt_of_lt_of_le Nat.lt_log2_self (Nat.pow_le_pow_left (by decide) _)
  have magnitude := magnitude_of_some some
  have one : (1 : ℚ) ≤ 10 := by norm_num
  by_cases tiny : numeral.magnitude < -330
  · rw [value, if_pos (.inr tiny)]
    refine Floating.rounds_zero (rational_pos some) (lt_of_lt_of_le upper ?_)
    exact le_trans (zpow_le_zpow_right₀ one (by omega)) ten_zpow_le
  rw [value, if_neg (not_or.mpr ⟨some, tiny⟩)]
  by_cases huge : 310 < numeral.magnitude
  · rw [if_pos huge]
    refine Floating.rounds_infinity (le_trans (le_trans le_ten_zpow ?_) lower)
    exact zpow_le_zpow_right₀ one (by omega)
  rw [if_neg huge]
  have computed := @Floating.rounds_ofScientific numeral.digits (Nat.pos_of_ne_zero some)
    numeral.exponent (by omega) (by omega)
  by_cases below : numeral.exponent < 0
  · have count : numeral.exponent.natAbs = (-numeral.exponent).toNat := by omega
    rw [decide_eq_true below, count] at computed
    rw [if_pos below]
    exact computed
  · have count : numeral.exponent.natAbs = numeral.exponent.toNat := by omega
    rw [decide_eq_false below, count] at computed
    rw [if_neg below]
    exact computed

/-- The value of a numeral depends on what it says exactly, and not on how. -/
theorem value_eq_of_rational_eq {first second : Numeral} (same : first.rational = second.rational) :
    first.value = second.value := by
  by_cases none : first.digits = 0
  · have also : second.digits = 0 := by
      rw [← rational_eq_zero_iff, ← same, rational_eq_zero_iff]
      exact none
    rw [value, value, if_pos (.inl none), if_pos (.inl also)]
  · have some : second.digits ≠ 0 := by
      rw [← rational_eq_zero_iff.ne, ← same, rational_eq_zero_iff.ne]
      exact none
    have right := rounds_value some
    rw [← same] at right
    exact (rounds_value none).unique right

end Numeral

/-! ### The bits of a number -/

variable {number : Float}

open Float.Model in
theorem toNat_packComponents (sign : UnpackedFloat.Sign) (field : BitVec 11)
    (fraction : BitVec 52) :
    (UnpackedFloat.packComponents Format.binary64 sign field fraction).toNat =
      (sign.toBitVec.toNat * 2 ^ 11 + field.toNat) * 2 ^ 52 + fraction.toNat := by
  have split : UnpackedFloat.packComponents Format.binary64 sign field fraction =
      sign.toBitVec ++ field ++ fraction := rfl
  rw [split, BitVec.toNat_append, BitVec.toNat_append,
    ← Nat.shiftLeft_add_eq_or_of_lt fraction.isLt, ← Nat.shiftLeft_add_eq_or_of_lt field.isLt,
    Nat.shiftLeft_eq, Nat.shiftLeft_eq]

/-- Whether a sign is a minus. -/
def isMinus : Float.Model.UnpackedFloat.Sign → Bool
  | .negative => true
  | .positive => false

open Float.Model in
/-- Taking a number apart by its bits is reading it as the operations do. -/
theorem classify_eq (number : Float) : classify number =
    match number.toModel.unpack with
    | .notANumber => .undefined
    | .infinity sign => .infinite (isMinus sign)
    | .zero sign => .finite ⟨isMinus sign, 0, -1074⟩
    | .finite sign mantissa exponent _ => .finite ⟨isMinus sign, mantissa, exponent⟩ := by
  obtain ⟨sign, field, fraction, bits⟩ := Floating.exists_components number
  have total : number.toBits.toNat =
      (sign.toBitVec.toNat * 2 ^ 11 + field.toNat) * 2 ^ 52 + fraction.toNat := by
    rw [← toNat_packComponents, ← bits]
    rfl
  have room : field.toNat < 2 ^ 11 := field.isLt
  have some : fraction.toNat < 2 ^ 52 := fraction.isLt
  have high : number.toBits.toNat / twoTo 52 % twoTo 11 = field.toNat := by
    show number.toBits.toNat / 2 ^ 52 % 2 ^ 11 = _
    omega
  have low : number.toBits.toNat % twoTo 52 = fraction.toNat := by
    show number.toBits.toNat % 2 ^ 52 = _
    omega
  have minus : decide (twoTo 63 ≤ number.toBits.toNat) = isMinus sign := by
    show decide (2 ^ 63 ≤ number.toBits.toNat) = _
    cases sign with
    | negative =>
      have bit : UnpackedFloat.Sign.negative.toBitVec.toNat = 1 := rfl
      exact decide_eq_true (by omega)
    | positive =>
      have bit : UnpackedFloat.Sign.positive.toBitVec.toNat = 0 := rfl
      exact decide_eq_false (by omega)
  have last : field.toNat = 2047 ↔ field = -1#11 := by
    rw [← BitVec.toNat_inj]
    rfl
  have none : field.toNat = 0 ↔ field = 0#11 := by
    rw [← BitVec.toNat_inj]
    rfl
  have empty : fraction.toNat = 0 ↔ fraction = 0#52 := by
    rw [← BitVec.toNat_inj]
    rfl
  rw [classify, Float.Model.unpack, bits, Floating.unpack_packComponents]
  rw [high, low, minus]
  simp only [last, none, empty]
  by_cases special : field = -1#11
  · rw [if_pos special, if_pos special]
    split <;> rfl
  · rw [if_neg special, if_neg special]
    by_cases least : field = 0#11
    · rw [if_pos least, if_pos least]
      by_cases nonzero : 0 < fraction.toNat
      · rw [dif_pos nonzero]
      · rw [dif_neg nonzero, Nat.eq_zero_of_not_pos nonzero]
    · rw [if_neg least, if_neg least]
      rfl

/-! ### The shortest numeral -/

section Shortest

open Float.Model.UnpackedFloat (Sign)

variable {sign : Sign} {exact : ℚ} {binary : Binary}

theorem classify_of_holds (holds : Holds sign exact number) : ∃ binary,
    classify number = .finite binary ∧ binary.negative = isMinus sign ∧
      binary.significand ≠ 0 ∧ exact = Floating.scaled binary.significand binary.exponent := by
  obtain ⟨mantissa, exponent, positive, finite, rfl⟩ := holds
  refine ⟨⟨isMinus sign, mantissa, exponent⟩, ?_, rfl, positive.ne', rfl⟩
  rw [classify_eq, finite]

/-- All digits of a magnitude say it exactly. -/
theorem rational_allDigits (binary : Binary) :
    binary.allDigits.rational = Floating.scaled binary.significand binary.exponent := by
  have five : (5 : ℚ) ^ (-binary.exponent).toNat * (10 : ℚ) ^ (-((-binary.exponent).toNat : ℤ)) =
      2 ^ (-((-binary.exponent).toNat : ℤ)) := by
    rw [zpow_neg, zpow_neg, zpow_natCast, zpow_natCast, ← inv_pow, ← inv_pow, ← mul_pow]
    norm_num
  have split : binary.exponent = (binary.exponent.toNat : ℤ) + -((-binary.exponent).toNat : ℤ) := by
    omega
  have numerator : (binary.numerator : ℚ) =
      binary.significand * 2 ^ (binary.exponent.toNat : ℤ) := by
    rw [zpow_natCast]
    exact_mod_cast rfl
  have digits : (binary.allDigits.digits : ℚ) =
      binary.numerator * 5 ^ (-binary.exponent).toNat := by
    exact_mod_cast rfl
  have exponent : binary.allDigits.exponent = -((-binary.exponent).toNat : ℤ) := rfl
  rw [Numeral.rational, digits, exponent, numerator, mul_assoc _ _ (10 ^ _), five, mul_assoc,
    ← zpow_add₀ two_ne_zero, ← split, Floating.scaled]

theorem eq_of_beq_of_holds {value : Float} (holds : Holds sign exact number)
    (equal : (value == number) = true) : value = number := by
  obtain ⟨_, _, same | ⟨_, zero⟩ | ⟨_, zero⟩⟩ := Float.beq_iff_ne_nan_and_eq.mp equal
  · exact same
  · obtain ⟨mantissa, exponent, positive, finite, rfl⟩ := holds
    rw [zero] at finite
    cases finite
  · obtain ⟨mantissa, exponent, positive, finite, rfl⟩ := holds
    rw [zero] at finite
    cases finite

/-- The shortest numeral of a number has its magnitude for value. -/
theorem value_shortest (holds : Holds sign exact number)
    (classified : classify number = .finite binary) :
    (shortest number binary).value = number.abs := by
  obtain ⟨other, also, _, some, rfl⟩ := classify_of_holds holds
  rw [also] at classified
  cases classified
  rw [shortest, if_neg some]
  cases found : shortest? number binary with
  | some numeral => exact eq_of_beq_of_holds holds.abs (value_of_shortest? found)
  | none =>
    have digits : binary.allDigits.digits ≠ 0 := by
      rw [← Numeral.rational_eq_zero_iff.ne, rational_allDigits]
      exact holds.pos.ne'
    have rounds := Numeral.rounds_value digits
    rw [rational_allDigits] at rounds
    exact rounds.unique holds.abs.rounds

end Shortest

end Decimal
end UnitSheet
