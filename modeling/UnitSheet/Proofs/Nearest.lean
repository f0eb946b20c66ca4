/-
This file says which floating-point number a rounded operation leads to.

Rounding starts from a mantissa and two more bits: one for half a unit that is left over, and one
for anything less that is. They say where the exact number lies (`Represents`), they go on saying so
when the mantissa is shifted, and what they are rounded to is the natural number nearest to the
exact one (`Represents.nearest`). The exact number is counted in units of its last place, which
depends on that number alone, and so does the result (`Rounds`).
-/

import Mathlib

namespace UnitSheet.Floating

open Float.Model
open Float.Model.UnpackedFloat (Sign Accuracy ExtendedMantissa roundWithAccuracy)

variable {exact other : ℚ} {whole more : ℕ}

/-! ### The nearest natural number -/

/-- A natural number is nearest to an exact one; of two equally near ones it is the even one. -/
structure Nearest (exact : ℚ) (whole : ℕ) : Prop where
  lower : (whole : ℚ) ≤ exact + 1 / 2
  upper : exact ≤ whole + 1 / 2
  even : (whole : ℚ) = exact + 1 / 2 ∨ exact = whole + 1 / 2 → Even whole

theorem nearest_of_lt (lower : (whole : ℚ) < exact + 1 / 2) (upper : exact < whole + 1 / 2) :
    Nearest exact whole where
  lower := lower.le
  upper := upper.le
  even := fun tie => absurd tie (not_or.mpr ⟨lower.ne, upper.ne⟩)

theorem nearest_natCast (whole : ℕ) : Nearest whole whole :=
  nearest_of_lt (by linarith) (by linarith)

/-- A greater number has no smaller one nearest to it. -/
theorem Nearest.mono (first : Nearest exact whole) (second : Nearest other more)
    (ordered : exact ≤ other) : whole ≤ more := by
  by_contra above
  have step : (more : ℚ) + 1 ≤ whole := by exact_mod_cast not_le.mp above
  have left := first.lower
  have right := second.upper
  -- Only a number between the two, as near to one as to the other, can have both nearest to it.
  have atFirst : (whole : ℚ) = exact + 1 / 2 := by linarith
  have atSecond : other = more + 1 / 2 := by linarith
  have consecutive : whole = more + 1 := by
    have equal : (whole : ℚ) = more + 1 := by linarith
    exact_mod_cast equal
  have odd := first.even (.inl atFirst)
  rw [consecutive, Nat.even_add_one] at odd
  exact odd (second.even (.inr atSecond))

theorem Nearest.unique (first : Nearest exact whole) (second : Nearest exact more) :
    whole = more :=
  le_antisymm (first.mono second le_rfl) (second.mono first le_rfl)

/-- The nearest number is below an even one when the exact number is not half-way to it. -/
theorem Nearest.lt_iff {bound : ℕ} (nearest : Nearest exact whole) (even : Even bound) :
    whole < bound ↔ exact < bound - 1 / 2 := by
  constructor
  · intro below
    have step : (whole : ℚ) + 1 ≤ bound := by exact_mod_cast below
    have upper := nearest.upper
    refine lt_of_le_of_ne (by linarith) fun tie => ?_
    -- Half-way between two consecutive numbers, of which the greater one is even.
    have consecutive : bound = whole + 1 := by
      have equal : (bound : ℚ) = whole + 1 := by linarith
      exact_mod_cast equal
    rw [consecutive, Nat.even_add_one] at even
    exact even (nearest.even (.inr (by linarith)))
  · intro below
    have lower := nearest.lower
    have cast : (whole : ℚ) < bound := by linarith
    exact_mod_cast cast

/-! ### Round and sticky bits -/

/-- What a mantissa with its two further bits says of an exact number. -/
def Represents (mantissa : ExtendedMantissa) (exact : ℚ) : Prop :=
  match mantissa with
  | ⟨whole, false, false⟩ => exact = whole
  | ⟨whole, false, true⟩ => whole < exact ∧ exact < whole + 1 / 2
  | ⟨whole, true, false⟩ => exact = whole + 1 / 2
  | ⟨whole, true, true⟩ => whole + 1 / 2 < exact ∧ exact < whole + 1

theorem Represents.bounds {mantissa : ExtendedMantissa} (represents : Represents mantissa exact) :
    mantissa.mantissa ≤ exact ∧ exact < mantissa.mantissa + 1 := by
  obtain ⟨whole, _ | _, _ | _⟩ := mantissa
  · exact ⟨represents.ge, by linarith [represents.le]⟩
  · exact ⟨represents.1.le, by linarith [represents.2]⟩
  · exact ⟨by linarith [represents.ge], by linarith [represents.le]⟩
  · exact ⟨by linarith [represents.1], represents.2⟩

/-- Rounding by the two bits leads to the nearest number. -/
theorem Represents.nearest {mantissa : ExtendedMantissa} (represents : Represents mantissa exact) :
    Nearest exact mantissa.roundedMantissa := by
  obtain ⟨whole, _ | _, _ | _⟩ := mantissa
  · have equal : exact = whole := represents
    rw [equal]
    exact nearest_natCast whole
  · obtain ⟨above, below⟩ := represents
    exact nearest_of_lt (show (whole : ℚ) < exact + 1 / 2 by linarith) below
  · have equal : exact = whole + 1 / 2 := represents
    show Nearest exact (whole + whole % 2)
    rcases Nat.even_or_odd whole with even | odd
    · rw [Nat.even_iff.mp even, add_zero]
      exact ⟨by linarith, by linarith, fun _ => even⟩
    · rw [Nat.odd_iff.mp odd]
      refine ⟨?_, ?_, fun _ => odd.add_one⟩
      · push_cast
        linarith
      · push_cast
        linarith
  · obtain ⟨above, below⟩ := represents
    refine nearest_of_lt (show ((whole + 1 : ℕ) : ℚ) < exact + 1 / 2 from ?_)
      (show exact < ((whole + 1 : ℕ) : ℚ) + 1 / 2 from ?_)
    · push_cast
      linarith
    · push_cast
      linarith

theorem Represents.shiftRightOne {mantissa : ExtendedMantissa}
    (represents : Represents mantissa exact) : Represents mantissa.shiftRightOne (exact / 2) := by
  obtain ⟨whole, round, sticky⟩ := mantissa
  obtain ⟨half, split | split⟩ := Nat.even_or_odd' whole
  · have shifted : ExtendedMantissa.shiftRightOne ⟨whole, round, sticky⟩ =
        ⟨half, false, round || sticky⟩ := by
      simp [ExtendedMantissa.shiftRightOne, split]
    have cast : (whole : ℚ) = 2 * half := by exact_mod_cast split
    rw [shifted]
    cases round <;> cases sticky <;> simp only [Represents, cast] at represents ⊢ <;> grind
  · have shifted : ExtendedMantissa.shiftRightOne ⟨whole, round, sticky⟩ =
        ⟨half, true, round || sticky⟩ := by
      simp [ExtendedMantissa.shiftRightOne, split]
      omega
    have cast : (whole : ℚ) = 2 * half + 1 := by exact_mod_cast split
    rw [shifted]
    cases round <;> cases sticky <;> simp only [Represents, cast] at represents ⊢ <;> grind

/-- A shift divides by a power of two, and the two bits stay true. -/
theorem Represents.shiftRight {mantissa : ExtendedMantissa} (represents : Represents mantissa exact)
    (count : ℕ) : Represents (mantissa >>> count) (exact / 2 ^ count) := by
  show Represents (count.repeat ExtendedMantissa.shiftRightOne mantissa) _
  induction count with
  | zero => simpa [Nat.repeat] using represents
  | succ count inductionHypothesis =>
    rw [pow_succ, ← div_div]
    exact inductionHypothesis.shiftRightOne

theorem represents_exact (whole : ℕ) :
    Represents (.ofMantissaAndAccuracy whole .exact) whole :=
  rfl

/-- The quotient of a division and what its remainder says of the exact quotient. -/
theorem represents_quotient (dividend : ℕ) {divisor : ℕ} (positive : 0 < divisor) :
    Represents (.ofMantissaAndAccuracy (dividend / divisor)
      (UnpackedFloat.accuracyOfFraction (dividend % divisor) divisor))
      ((dividend : ℚ) / divisor) := by
  have cast : (0 : ℚ) < divisor := by exact_mod_cast positive
  have small : ((dividend % divisor : ℕ) : ℚ) < divisor := by
    exact_mod_cast Nat.mod_lt dividend positive
  have split : (dividend : ℚ) = divisor * (dividend / divisor : ℕ) + (dividend % divisor : ℕ) := by
    exact_mod_cast (Nat.div_add_mod dividend divisor).symm
  rw [split, add_div, mul_div_cancel_left₀ _ cast.ne', UnpackedFloat.accuracyOfFraction]
  generalize dividend / divisor = quotient
  generalize dividend % divisor = rest at small
  by_cases none : rest = 0
  · rw [if_pos none, none]
    simp [ExtendedMantissa.ofMantissaAndAccuracy, Represents]
  · have some : (0 : ℚ) < rest := by exact_mod_cast Nat.pos_of_ne_zero none
    rw [if_neg none]
    rcases lt_trichotomy (2 * rest) divisor with below | same | above
    · have half : (2 * rest : ℚ) < divisor := by exact_mod_cast below
      rw [compare_lt_iff_lt.mpr below]
      refine ⟨lt_add_of_pos_right _ (div_pos some cast), add_lt_add_right ?_ _⟩
      rw [div_lt_iff₀ cast]
      linarith
    · have half : (2 * rest : ℚ) = divisor := by exact_mod_cast same
      rw [compare_eq_iff_eq.mpr same]
      refine congrArg _ ?_
      rw [div_eq_iff cast.ne']
      linarith
    · have half : (divisor : ℚ) < 2 * rest := by exact_mod_cast above
      rw [compare_gt_iff_gt.mpr above]
      refine ⟨add_lt_add_right ?_ _, add_lt_add_right ?_ _⟩
      · rw [lt_div_iff₀ cast]
        linarith
      · rw [div_lt_one cast]
        exact small

/-! ### The last place of a number -/

/-- The exponent of the last place of the number nearest to an exact one: fifty-two places below the
leading bit, but not below the least exponent. -/
def lastPlace (exact : ℚ) : ℤ :=
  max (Int.log 2 exact - 52) (-1074)

theorem least_le_lastPlace (exact : ℚ) : -1074 ≤ lastPlace exact :=
  le_max_right _ _

/-- A number with an exponent. -/
def scaled (mantissa : ℕ) (exponent : ℤ) : ℚ :=
  mantissa * 2 ^ exponent

/-- A number of fifty-three bits at most, all of which it has unless its exponent is the least. -/
structure Canonical (mantissa : ℕ) (exponent : ℤ) : Prop where
  positive : 0 < mantissa
  upper : mantissa < 2 ^ 53
  least : -1074 ≤ exponent
  full : 2 ^ 52 ≤ mantissa ∨ exponent = -1074

theorem zpow_le_iff (some : 0 < exact) (place : ℤ) :
    2 ^ place ≤ exact ↔ place ≤ Int.log 2 exact := by
  have cast : ((2 : ℕ) : ℚ) ^ place ≤ exact ↔ place ≤ Int.log 2 exact :=
    Int.zpow_le_iff_le_log one_lt_two some
  rwa [Nat.cast_ofNat] at cast

theorem lt_zpow_iff (some : 0 < exact) (place : ℤ) :
    exact < 2 ^ place ↔ Int.log 2 exact < place := by
  rw [← not_le, zpow_le_iff some, not_le]

theorem pow_mul_zpow (count : ℕ) (place : ℤ) :
    (2 : ℚ) ^ count * 2 ^ place = 2 ^ (count + place) := by
  rw [zpow_add₀ two_ne_zero, zpow_natCast]

/-- The leading bit of a number is that of its whole part. -/
theorem log_of_bounds {mantissa : ℕ} {exponent : ℤ} (positive : 0 < mantissa)
    (lower : mantissa ≤ exact / 2 ^ exponent) (upper : exact / 2 ^ exponent < mantissa + 1) :
    Int.log 2 exact = mantissa.log2 + exponent := by
  have power : (0 : ℚ) < 2 ^ exponent := zpow_pos two_pos exponent
  rw [le_div_iff₀ power] at lower
  rw [div_lt_iff₀ power] at upper
  have some : 0 < exact := lt_of_lt_of_le (by positivity) lower
  refine le_antisymm ?_ ?_
  · rw [← Int.lt_add_one_iff, ← lt_zpow_iff some]
    refine lt_of_lt_of_le upper ?_
    have bound : mantissa + 1 ≤ 2 ^ (mantissa.log2 + 1) := Nat.lt_log2_self
    rw [add_right_comm, zpow_add₀ two_ne_zero]
    refine mul_le_mul_of_nonneg_right ?_ power.le
    exact_mod_cast bound
  · rw [← zpow_le_iff some, zpow_add₀ two_ne_zero]
    refine le_trans (mul_le_mul_of_nonneg_right ?_ power.le) lower
    have bound : 2 ^ mantissa.log2 ≤ mantissa := Nat.log2_self_le positive.ne'
    exact_mod_cast bound

theorem log_scaled {mantissa : ℕ} (positive : 0 < mantissa) (exponent : ℤ) :
    Int.log 2 (scaled mantissa exponent) = mantissa.log2 + exponent := by
  have power : (2 : ℚ) ^ exponent ≠ 0 := zpow_ne_zero _ two_ne_zero
  exact log_of_bounds positive (by rw [scaled, mul_div_cancel_right₀ _ power])
    (by rw [scaled, mul_div_cancel_right₀ _ power]; linarith)

/-- A canonical number has its own last place. -/
theorem Canonical.lastPlace_scaled {mantissa : ℕ} {exponent : ℤ}
    (canonical : Canonical mantissa exponent) :
    lastPlace (scaled mantissa exponent) = exponent := by
  have leading := log_scaled canonical.positive exponent
  have bits : mantissa.log2 < 53 := (Nat.log2_lt canonical.positive.ne').mpr canonical.upper
  have least := canonical.least
  rw [lastPlace, leading]
  rcases canonical.full with full | atLeast
  · have all : 52 ≤ mantissa.log2 := (Nat.le_log2 canonical.positive.ne').mpr full
    omega
  · omega

/-- An exact number has room in fifty-three bits above its last place. -/
theorem div_lastPlace_lt (some : 0 < exact) : exact / 2 ^ lastPlace exact < 2 ^ 53 := by
  rw [div_lt_iff₀ (zpow_pos two_pos _), ← zpow_natCast, ← zpow_add₀ two_ne_zero]
  rw [lt_zpow_iff some, lastPlace]
  omega

/-- It fills them unless its last place is the least one. -/
theorem le_div_lastPlace (some : 0 < exact) (above : lastPlace exact ≠ -1074) :
    2 ^ 52 ≤ exact / 2 ^ lastPlace exact := by
  rw [le_div_iff₀ (zpow_pos two_pos _), ← zpow_natCast, ← zpow_add₀ two_ne_zero]
  rw [zpow_le_iff some]
  rw [lastPlace] at above ⊢
  omega

theorem room_of_nearest (some : 0 < exact) (nearest : Nearest (exact / 2 ^ lastPlace exact) whole) :
    whole ≤ 2 ^ 53 ∧ (2 ^ 52 ≤ whole ∨ lastPlace exact = -1074) := by
  constructor
  · refine nearest.mono (nearest_natCast (2 ^ 53)) ?_
    exact_mod_cast (div_lastPlace_lt some).le
  · refine or_iff_not_imp_right.mpr fun other => (nearest_natCast (2 ^ 52)).mono nearest ?_
    exact_mod_cast le_div_lastPlace some other

/-- The place to which a mantissa is shifted is the last place of the number that it stands for. -/
theorem targetExponent_eq {mantissa : ℕ} {exponent : ℤ} (some : 0 < exact)
    (lower : mantissa ≤ exact / 2 ^ exponent) (upper : exact / 2 ^ exponent < mantissa + 1)
    (fine : exponent ≤ lastPlace exact) :
    Format.binary64.targetExponent (totalExponent mantissa exponent) = lastPlace exact := by
  have target : Format.binary64.targetExponent (totalExponent mantissa exponent) =
      max (mantissa.log2 + 1 + exponent - 53) (-1074) := rfl
  rw [target]
  rcases Nat.eq_zero_or_pos mantissa with none | positive
  · -- Nothing is above the last place, which therefore is the least one.
    subst none
    rw [Nat.cast_zero, zero_add, div_lt_one (zpow_pos two_pos _),
      lt_zpow_iff some] at upper
    rw [lastPlace] at fine ⊢
    simp only [Nat.log2_zero]
    omega
  · rw [lastPlace, log_of_bounds positive lower upper]
    omega

/-! ### Rounding -/

/-- The number with a count of units of its last place; one bit too many moves the place. -/
def kept (sign : Sign) (whole : ℕ) (place : ℤ) : UnpackedFloat :=
  if positive : 0 < whole then
    if whole < 2 ^ 53 then .finite sign whole place positive
    else .finite sign (2 ^ 52) (place + 1) (by decide)
  else .zero sign

/-- A floating-point number is the nearest one to an exact magnitude, with a sign. -/
def Rounds (sign : Sign) (exact : ℚ) (value : Float) : Prop :=
  ∃ whole, Nearest (exact / 2 ^ lastPlace exact) whole ∧
    value = .ofModel (.pack (kept sign whole (lastPlace exact)))

theorem Rounds.unique {sign : Sign} {first second : Float} (left : Rounds sign exact first)
    (right : Rounds sign exact second) : first = second := by
  obtain ⟨whole, nearest, rfl⟩ := left
  obtain ⟨more, also, rfl⟩ := right
  rw [nearest.unique also]

theorem shiftToTargetExponent_of_lt {whole : ℕ} {place : ℤ} (small : whole < 2 ^ 53)
    (least : -1074 ≤ place) :
    UnpackedFloat.shiftToTargetExponent Format.binary64 whole place .exact =
      (⟨whole, false, false⟩, place) := by
  have bits : whole.log2 < 53 := by
    rcases Nat.eq_zero_or_pos whole with rfl | positive
    · simp
    · exact (Nat.log2_lt positive.ne').mpr small
  have target : Format.binary64.targetExponent (totalExponent whole place) =
      max (whole.log2 + 1 + place - 53) (-1074) := rfl
  have still : (Format.binary64.targetExponent (totalExponent whole place) - place).toNat = 0 := by
    omega
  rw [UnpackedFloat.shiftToTargetExponent, UnpackedFloat.shiftToExponent, still]
  exact Prod.ext rfl (add_zero place)

theorem shiftToTargetExponent_of_carry {place : ℤ} (least : -1074 ≤ place) :
    UnpackedFloat.shiftToTargetExponent Format.binary64 (2 ^ 53) place .exact =
      (⟨2 ^ 52, false, false⟩, place + 1) := by
  have target : Format.binary64.targetExponent (totalExponent (2 ^ 53) place) =
      max ((2 ^ 53).log2 + 1 + place - 53) (-1074) := rfl
  rw [Nat.log2_two_pow] at target
  have once :
      (Format.binary64.targetExponent (totalExponent (2 ^ 53) place) - place).toNat = 1 := by
    omega
  rw [UnpackedFloat.shiftToTargetExponent, UnpackedFloat.shiftToExponent, once]
  rfl

/-- Rounding a mantissa that stands for an exact number leads to the number nearest to it. -/
theorem rounds_roundWithAccuracy {mantissa : ℕ} {exponent : ℤ} {accuracy : Accuracy}
    (sign : Sign) (some : 0 < exact)
    (represents : Represents (.ofMantissaAndAccuracy mantissa accuracy) (exact / 2 ^ exponent))
    (fine : exponent ≤ lastPlace exact) :
    Rounds sign exact
      (.ofModel (.pack (roundWithAccuracy Format.binary64 sign mantissa exponent accuracy))) := by
  have least := least_le_lastPlace exact
  have bounds := represents.bounds
  have same : (ExtendedMantissa.ofMantissaAndAccuracy mantissa accuracy).mantissa = mantissa := by
    unfold ExtendedMantissa.ofMantissaAndAccuracy
    split <;> rfl
  rw [same] at bounds
  obtain ⟨count, place⟩ := Int.le.dest fine
  -- The shift to the last place.
  have shifted : UnpackedFloat.shiftToTargetExponent Format.binary64 mantissa exponent accuracy =
      (ExtendedMantissa.ofMantissaAndAccuracy mantissa accuracy >>> count, lastPlace exact) := by
    have steps : (lastPlace exact - exponent).toNat = count := by omega
    rw [UnpackedFloat.shiftToTargetExponent, targetExponent_eq some bounds.1 bounds.2 fine,
      UnpackedFloat.shiftToExponent, steps, place]
  have nearest := (represents.shiftRight count).nearest
  rw [div_div, ← zpow_natCast, ← zpow_add₀ two_ne_zero, place] at nearest
  refine ⟨_, nearest, congrArg (Float.ofModel <| .pack ·) ?_⟩
  rw [roundWithAccuracy, shifted]
  dsimp only
  generalize (ExtendedMantissa.ofMantissaAndAccuracy mantissa accuracy >>> count).roundedMantissa =
    whole at nearest
  rcases (room_of_nearest some nearest).1.lt_or_eq with small | rfl
  · rw [shiftToTargetExponent_of_lt small least, kept]
    rcases Nat.eq_zero_or_pos whole with rfl | positive
    · rfl
    · rw [dif_neg positive.ne', dif_pos positive, if_pos small]
  · rw [shiftToTargetExponent_of_carry least]
    rfl

end UnitSheet.Floating
