/-
This file says which floating-point number scientific notation stands for.

A natural number of fifty-three bits at most is held exactly, and so is a power of ten from a small
table; what is computed from them is rounded once. All other scientific notation is computed from
exact natural numbers, and so is rounded once too (`rounds_ofScientific`). Beyond all finite numbers
the nearest one is infinite, and below half of the least one it is zero.
-/

import UnitSheet.Proofs.Exact

namespace UnitSheet.Floating

open Float.Model

variable {exact : ℚ} {whole : ℕ} {value : Float}

/-! ### Numbers beyond the greatest and below the least -/

theorem exists_nearest (positive : 0 ≤ exact) : ∃ whole, Nearest exact whole := by
  have lower := Nat.floor_le positive
  have upper := Nat.lt_floor_add_one exact
  generalize ⌊exact⌋₊ = below at lower upper
  rcases lt_trichotomy exact (below + 1 / 2) with near | half | far
  · exact ⟨below, nearest_of_lt (by linarith) near⟩
  · have represents : Represents ⟨below, true, false⟩ exact := half
    exact ⟨_, represents.nearest⟩
  · have represents : Represents ⟨below, true, true⟩ exact := ⟨far, upper⟩
    exact ⟨_, represents.nearest⟩

theorem unpack_infinity : (1 / 0 : Float).toModel.unpack = .infinity .positive :=
  rfl

/-- The number nearest to an exact one beyond all finite numbers is infinite. -/
theorem rounds_infinity (great : 2 ^ (1024 : ℤ) ≤ exact) : Rounds .positive exact (1 / 0) := by
  have positive : 0 < exact := lt_of_lt_of_le (zpow_pos two_pos _) great
  have leading := (zpow_le_iff positive _).mp great
  have place : 971 < lastPlace exact := lt_max_of_lt_left (by omega)
  obtain ⟨whole, nearest⟩ := exists_nearest (div_pos positive (zpow_pos two_pos _)).le
  obtain ⟨room, full⟩ := room_of_nearest positive nearest
  have some : 0 < whole := lt_of_lt_of_le (by decide) (full.resolve_right (by omega))
  obtain ⟨mantissa, exponent, canonical, equal, fits⟩ :=
    exists_canonical_kept .positive some (least_le_lastPlace exact) room full
  refine ⟨whole, nearest, unpack_inj.mp ?_⟩
  rw [equal, unpack_infinity]
  exact (unpack_pack_of_overflow canonical.positive (by omega)).symm

/-- The number nearest to an exact one that is less than half of the least is zero. -/
theorem rounds_zero (some : 0 < exact) (small : exact < 2 ^ (-1075 : ℤ)) :
    Rounds .positive exact 0 := by
  have leading := (lt_zpow_iff some _).mp small
  have place : lastPlace exact = -1074 := max_eq_right (by omega)
  have half : exact / 2 ^ lastPlace exact < 1 / 2 := by
    rw [place, div_lt_iff₀ (zpow_pos two_pos _)]
    refine lt_of_lt_of_eq small ?_
    rw [one_div, ← zpow_neg_one, ← zpow_add₀ two_ne_zero]
    rfl
  have ratio : 0 < exact / 2 ^ lastPlace exact := div_pos some (zpow_pos two_pos _)
  refine ⟨0, nearest_of_lt ?_ ?_, ?_⟩
  · push_cast
    linarith
  · push_cast
    linarith
  · rfl

/-! ### Natural numbers -/

theorem exists_canonical (positive : 0 < whole) (small : whole < 2 ^ 53) :
    ∃ mantissa exponent, Canonical mantissa exponent ∧ exponent ≤ 971 ∧
      (whole : ℚ) = scaled mantissa exponent := by
  have bits : whole.log2 < 53 := (Nat.log2_lt positive.ne').mpr small
  obtain ⟨count, total⟩ := Nat.exists_eq_add_of_le (Nat.le_of_lt_succ bits)
  have lower : 2 ^ whole.log2 ≤ whole := Nat.log2_self_le positive.ne'
  have upper : whole < 2 ^ (whole.log2 + 1) := Nat.lt_log2_self
  have power : 0 < 2 ^ count := Nat.two_pow_pos count
  refine ⟨whole * 2 ^ count, -count, ⟨Nat.mul_pos positive power, ?_, by omega, .inl ?_⟩,
    by omega, ?_⟩
  · calc whole * 2 ^ count < 2 ^ (whole.log2 + 1) * 2 ^ count :=
          Nat.mul_lt_mul_of_pos_right upper power
      _ = 2 ^ 53 := by rw [← pow_add]; congr 1; omega
  · calc 2 ^ 52 = 2 ^ whole.log2 * 2 ^ count := by rw [← pow_add, ← total]
      _ ≤ whole * 2 ^ count := Nat.mul_le_mul_right _ lower
  · rw [scaled, Nat.cast_mul, Nat.cast_pow, Nat.cast_ofNat, mul_assoc, pow_mul_zpow, add_neg_cancel,
      zpow_zero, mul_one]

/-- A natural number is shifted up to fifty-three bits before it is rounded. -/
theorem ofUInt64_eq {count : ℕ} (positive : 0 < whole) (small : whole < 2 ^ 53)
    (total : 52 = whole.log2 + count) :
    UnpackedFloat.ofUInt64 Format.binary64 whole.toUInt64 =
      UnpackedFloat.roundWithAccuracy Format.binary64 .positive (whole <<< count) (-(count : ℤ))
        .exact := by
  have same : whole.toUInt64.toNat = whole :=
    UInt64.toNat_ofNat_of_lt' (lt_trans small (by decide))
  have target : Format.binary64.targetExponent (totalExponent whole 0) =
      max ((whole.log2 : ℤ) + 1 + 0 - 53) (-1074) := rfl
  have lower : UnpackedFloat.decreaseExponent whole 0
      (Format.binary64.targetExponent (totalExponent whole 0)) =
        (whole <<< count, -(count : ℤ)) := by
    have steps : (0 - Format.binary64.targetExponent (totalExponent whole 0)).toNat = count := by
      omega
    rw [UnpackedFloat.decreaseExponent, steps, zero_sub]
  have above : compare (whole : ℤ) 0 = .gt := compare_gt_iff_gt.mpr (by omega)
  rw [UnpackedFloat.ofUInt64, same, UnpackedFloat.ofNat, UnpackedFloat.ofInt,
    UnpackedFloat.normalize, above]
  dsimp only
  rw [Int.toNat_natCast, UnpackedFloat.round, lower]

/-- A natural number of fifty-three bits at most is held exactly. -/
theorem holds_toFloat (positive : 0 < whole) (small : whole < 2 ^ 53) :
    Holds .positive whole whole.toUInt64.toFloat := by
  have bits : whole.log2 < 53 := (Nat.log2_lt positive.ne').mpr small
  obtain ⟨count, total⟩ := Nat.exists_eq_add_of_le (Nat.le_of_lt_succ bits)
  have some : (0 : ℚ) < whole := by exact_mod_cast positive
  have rounds : Rounds .positive whole whole.toUInt64.toFloat := by
    have value : whole.toUInt64.toFloat =
        .ofModel (.pack (UnpackedFloat.ofUInt64 Format.binary64 whole.toUInt64)) := rfl
    rw [value, ofUInt64_eq positive small total]
    refine rounds_roundWithAccuracy .positive some ?_ ?_
    · have exact : (whole : ℚ) / (2 : ℚ) ^ (-(count : ℤ)) = ((whole <<< count : ℕ) : ℚ) := by
        rw [zpow_neg, div_inv_eq_mul, zpow_natCast, Nat.shiftLeft_eq]
        push_cast
        rfl
      rw [exact]
      exact represents_exact _
    · rw [lastPlace, Int.log_natCast, ← Nat.log2_eq_log_two]
      omega
  obtain ⟨mantissa, exponent, canonical, fits, equal⟩ := exists_canonical positive small
  rw [equal] at rounds ⊢
  exact rounds.holds canonical fits

/-! ### Powers of ten -/

/-- Whether a number is exactly a natural one, decided on its bits. -/
def isWhole (value : Float) (whole : ℕ) : Bool :=
  match value.toModel.unpack with
  | .finite .positive mantissa exponent _ =>
    mantissa * 2 ^ exponent.toNat == whole * 2 ^ (-exponent).toNat
  | _ => false

theorem holds_of_isWhole (equal : isWhole value whole = true) : Holds .positive whole value := by
  unfold isWhole at equal
  split at equal
  · rename_i mantissa exponent positive finite
    refine ⟨mantissa, exponent, positive, finite, ?_⟩
    have same : (mantissa : ℚ) * 2 ^ exponent.toNat = whole * 2 ^ (-exponent).toNat := by
      exact_mod_cast eq_of_beq equal
    rcases Int.le_total 0 exponent with above | below
    · obtain ⟨count, rfl⟩ := Int.eq_ofNat_of_zero_le above
      simpa [scaled] using same.symm
    · obtain ⟨count, split⟩ := Int.eq_ofNat_of_zero_le (Int.neg_nonneg_of_nonpos below)
      have back : exponent = -(count : ℤ) := by omega
      subst back
      rw [scaled, zpow_neg, zpow_natCast, eq_mul_inv_iff_mul_eq₀ (by positivity)]
      simpa using same.symm
  · cases equal

theorem isWhole_powersOfTen : ∀ index : Fin Float.exactlyRepresentablePowersOfTen.size,
    isWhole Float.exactlyRepresentablePowersOfTen[index] (10 ^ index.val) = true := by
  decide +kernel

/-- Scientific notation is rounded once, if its exponent is not out of all bounds. -/
theorem rounds_scientific {digits : ℕ} (some : 0 < digits) {exponent : ℤ}
    (lower : -(2048 + digits.log2 : ℤ) ≤ exponent) (upper : exponent ≤ 2048) :
    Rounds .positive (digits * (10 : ℚ) ^ exponent)
      (.ofModel (Float.Model.ofScientific digits exponent)) := by
  have bits : (2 : ℤ) ^ Format.binary64.exponentBits = 2048 := rfl
  rw [Float.Model.ofScientific, UnpackedFloat.ofScientific, dif_neg some.ne', bits,
    if_neg (by omega), if_neg (by omega)]
  split
  · rename_i above
    have power : 0 < 10 ^ exponent.toNat := Nat.pow_pos (by decide)
    have exact : (digits : ℚ) * (10 : ℚ) ^ exponent =
        scaled (digits <<< 53) (-53) * scaled (10 ^ exponent.toNat) 0 := by
      have unit : (2 : ℚ) ^ 53 * 2 ^ (-53 : ℤ) = 1 := pow_mul_zpow 53 (-53)
      conv_lhs => rw [← Int.toNat_of_nonneg above]
      rw [scaled, scaled, Nat.shiftLeft_eq, Nat.cast_mul, Nat.cast_pow, Nat.cast_pow,
        Nat.cast_ofNat, Nat.cast_ofNat, mul_assoc (digits : ℚ), unit, zpow_natCast, zpow_zero,
        mul_one, mul_one]
    rw [exact]
    refine rounds_mul (Nat.shiftLeft_pos_iff.mpr some) power ?_ (-53) 0 .positive .positive
    calc 2 ^ 52 ≤ digits * 2 ^ 53 * 1 := by omega
      _ ≤ digits <<< 53 * 10 ^ exponent.toNat := by
        rw [Nat.shiftLeft_eq]
        exact Nat.mul_le_mul_left _ power
  · rename_i below
    have power : 0 < 10 ^ (-exponent).toNat := Nat.pow_pos (by decide)
    have exact : (digits : ℚ) * (10 : ℚ) ^ exponent =
        scaled digits 0 / scaled (10 ^ (-exponent).toNat) 0 := by
      have back : exponent = -((-exponent).toNat : ℤ) := by omega
      conv_lhs => rw [back]
      rw [scaled, scaled, zpow_neg, zpow_natCast, Nat.cast_pow, Nat.cast_ofNat, zpow_zero, mul_one,
        mul_one, div_eq_mul_inv]
    rw [exact]
    exact rounds_div some power 0 0 .positive .positive

/-- So is what is computed from a power of ten in the table. -/
theorem rounds_table {digits : ℕ} (some : 0 < digits) (small : digits < 2 ^ 53) {exponent : ℤ}
    (index : Fin Float.exactlyRepresentablePowersOfTen.size) (place : exponent.natAbs = index) :
    Rounds .positive (digits * (10 : ℚ) ^ exponent)
      (if decide (exponent < 0) then
        digits.toUInt64.toFloat / Float.exactlyRepresentablePowersOfTen[index]
      else digits.toUInt64.toFloat * Float.exactlyRepresentablePowersOfTen[index]) := by
  have first := holds_toFloat some small
  have power := holds_of_isWhole (isWhole_powersOfTen index)
  rcases lt_or_ge exponent 0 with below | above
  · have exact : (digits : ℚ) * (10 : ℚ) ^ exponent = digits / ((10 ^ index.val : ℕ) : ℚ) := by
      have back : exponent = -(index.val : ℤ) := by omega
      rw [back, zpow_neg, zpow_natCast, Nat.cast_pow, Nat.cast_ofNat, div_eq_mul_inv]
    rw [if_pos (decide_eq_true below), exact]
    exact first.rounds_div power
  · have exact : (digits : ℚ) * (10 : ℚ) ^ exponent = digits * ((10 ^ index.val : ℕ) : ℚ) := by
      have back : exponent = (index.val : ℤ) := by omega
      rw [back, zpow_natCast, Nat.cast_pow, Nat.cast_ofNat]
    rw [if_neg (by simpa using above), exact]
    refine first.rounds_mul power ?_
    exact_mod_cast Nat.one_le_pow _ _ (by decide)

/-- A number that is written in scientific notation is the nearest one to what it says. -/
theorem rounds_ofScientific {digits : ℕ} (some : 0 < digits) {exponent : ℤ}
    (lower : -(2048 + digits.log2 : ℤ) ≤ exponent) (upper : exponent ≤ 2048) :
    Rounds .positive (digits * (10 : ℚ) ^ exponent)
      (Float.ofScientific digits (decide (exponent < 0)) exponent.natAbs) := by
  have signed : (if decide (exponent < 0) = true then Int.negOfNat exponent.natAbs
      else Int.ofNat exponent.natAbs) = exponent := by
    split
    · rename_i below
      have below := of_decide_eq_true below
      rw [Int.negOfNat_eq]
      show -(exponent.natAbs : ℤ) = _
      omega
    · rename_i above
      have above := of_decide_eq_false (eq_false_of_ne_true above)
      show (exponent.natAbs : ℤ) = _
      omega
  rw [Float.ofScientific]
  by_cases fits : digits < 2 ^ 53 ∧ exponent.natAbs ≤ 22
  · rw [dif_pos fits]
    exact rounds_table some fits.1 ⟨_, Nat.lt_succ_of_le fits.2⟩ rfl
  · rw [dif_neg fits]
    dsimp only
    rw [signed]
    exact rounds_scientific some lower upper

end UnitSheet.Floating
