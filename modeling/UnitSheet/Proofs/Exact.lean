/-
This file says what the quotient and the product of two floating-point numbers are.

A finite number holds a magnitude exactly (`Holds`), in one form only: its bits are read into a
canonical mantissa and exponent, and packing these gives the bits again. The quotient of two finite
numbers is the number nearest to the quotient of what they hold, and so is their product. The number
nearest to an exact one is finite unless that is more than half a last place above the greatest
number (`Rounds.isFinite_iff`).
-/

import UnitSheet.Proofs.Nearest

namespace UnitSheet.Floating

open Float.Model
open Float.Model.UnpackedFloat (Sign)

variable {exact other : ℚ} {whole : ℕ} {sign : Sign} {value : Float}

/-! ### Numbers and their bits -/

/-- A floating-point number is exactly a magnitude with a sign. -/
def Holds (sign : Sign) (exact : ℚ) (value : Float) : Prop :=
  ∃ (mantissa : ℕ) (exponent : ℤ) (positive : 0 < mantissa),
    value.toModel.unpack = .finite sign mantissa exponent positive ∧
      exact = scaled mantissa exponent

theorem ofModel_pack_unpack (value : Float) : .ofModel (.pack value.toModel.unpack) = value := by
  refine Float.toBits_inj.mp (UInt64.toBitVec_inj.mp ?_)
  exact UnpackedFloat.pack_unpack_of_valid value.toModel.valid

theorem unpack_inj {first second : Float} :
    first.toModel.unpack = second.toModel.unpack ↔ first = second := by
  refine ⟨fun same => ?_, fun same => same ▸ rfl⟩
  rw [← ofModel_pack_unpack first, same, ofModel_pack_unpack]

theorem toNat_full (fraction : BitVec 52) : (1#1 ++ fraction).toNat = 2 ^ 52 + fraction.toNat := by
  rw [BitVec.toNat_append, ← Nat.shiftLeft_add_eq_or_of_lt fraction.isLt]
  rfl

theorem toNat_lt_of_ne {field : BitVec 11} (other : field ≠ -1#11) : field.toNat < 2047 := by
  have differs : field.toNat ≠ 2047 := fun same => other (BitVec.eq_of_toNat_eq same)
  have bound := field.isLt
  omega

/-- What the fields of a number say. -/
theorem unpack_packComponents (sign : Sign) (field : BitVec 11) (fraction : BitVec 52) :
    UnpackedFloat.unpack Format.binary64
      (UnpackedFloat.packComponents Format.binary64 sign field fraction) =
        if field = -1#11 then if fraction = 0#52 then .infinity sign else .notANumber
        else if field = 0#11 then
          if some : 0 < fraction.toNat then .finite sign fraction.toNat (-1074) some
          else .zero sign
        else .finite sign (2 ^ 52 + fraction.toNat) (field.toNat - 1075) (by omega) := by
  have nonzero : fraction = 0#52 ↔ ¬ 0 < fraction.toNat := by
    rw [not_lt, Nat.le_zero, ← BitVec.toNat_inj]
    rfl
  unfold UnpackedFloat.unpack
  simp only [UnpackedFloat.unpackExponent_packComponents,
    UnpackedFloat.unpackMantissa_packComponents, UnpackedFloat.unpackSign_packComponents,
    UnpackedFloat.Sign.ofBitVec_toBitVec]
  split
  · rfl
  · split
    · rename_i least
      subst least
      by_cases some : 0 < fraction.toNat
      · rw [dif_neg (nonzero.not_left.mpr some), dif_pos some]
        rfl
      · rw [dif_pos (nonzero.mpr some), dif_neg some]
    · congr 1
      exact toNat_full fraction

theorem exists_components (value : Float) : ∃ sign field fraction,
    value.toModel.toBits.toBitVec =
      UnpackedFloat.packComponents Format.binary64 sign field fraction :=
  ⟨_, _, _, (@UnpackedFloat.packComponents_unpackSign_unpackExponent_unpackMantissa
    Format.binary64 _).symm⟩

/-- A finite number that is read off bits is canonical, and not too great. -/
theorem canonical_of_unpack {mantissa : ℕ} {exponent : ℤ}
    {positive : 0 < mantissa}
    (finite : value.toModel.unpack = .finite sign mantissa exponent positive) :
    Canonical mantissa exponent ∧ exponent ≤ 971 := by
  obtain ⟨other, field, fraction, bits⟩ := exists_components value
  have bound : fraction.toNat < 2 ^ 52 := fraction.isLt
  rw [Float.Model.unpack, bits, unpack_packComponents] at finite
  split at finite
  · split at finite <;> cases finite
  · rename_i ordinary
    split at finite
    · split at finite
      · cases finite
        exact ⟨⟨positive, by omega, by decide, .inr rfl⟩, by decide⟩
      · cases finite
    · rename_i some
      cases finite
      have nonzero : field.toNat ≠ 0 := fun same => some (BitVec.eq_of_toNat_eq same)
      have great := toNat_lt_of_ne ordinary
      exact ⟨⟨positive, by omega, by omega, .inl (by omega)⟩, by omega⟩

theorem pack_finite {mantissa : ℕ} {exponent : ℤ} (positive : 0 < mantissa) :
    UnpackedFloat.pack Format.binary64 (.finite sign mantissa exponent positive) =
      if 2 ^ 11 ≤ (exponent + 1075).toNat + 1 then UnpackedFloat.packedInfinity Format.binary64 sign
      else if mantissa.log2 + 1 = 53 then
        UnpackedFloat.packComponents Format.binary64 sign (BitVec.ofNat 11 (exponent + 1075).toNat)
          (BitVec.ofNat 52 mantissa)
      else UnpackedFloat.packComponents Format.binary64 sign 0#11 (BitVec.ofNat 52 mantissa) := by
  have biased : exponent + Format.binary64.exponentBias +
      Format.binary64.mantissaBitsWithoutImplicit = exponent + 1075 := by
    show exponent + 1023 + 52 = _
    omega
  unfold UnpackedFloat.pack
  simp only [biased]
  rfl

/-- Packing a canonical number loses nothing. -/
theorem unpack_pack_of_canonical {mantissa : ℕ} {exponent : ℤ}
    (positive : 0 < mantissa) (canonical : Canonical mantissa exponent) (fits : exponent ≤ 971) :
    (Float.Model.pack (.finite sign mantissa exponent positive)).unpack =
      .finite sign mantissa exponent positive := by
  have least := canonical.least
  have upper := canonical.upper
  show UnpackedFloat.unpack _ (UnpackedFloat.pack _ _) = _
  rw [pack_finite, if_neg (show ¬ 2 ^ 11 ≤ (exponent + 1075).toNat + 1 by omega)]
  by_cases full : 2 ^ 52 ≤ mantissa
  · have bits : mantissa.log2 = 52 := (Nat.log2_eq_iff positive.ne').mpr ⟨full, upper⟩
    have field : (BitVec.ofNat 11 (exponent + 1075).toNat).toNat = (exponent + 1075).toNat := by
      rw [BitVec.toNat_ofNat, Nat.mod_eq_of_lt (by omega)]
    have some : BitVec.ofNat 11 (exponent + 1075).toNat ≠ 0#11 := by
      rw [← BitVec.toNat_ne_iff_ne, field]
      show _ ≠ 0
      omega
    have ordinary : BitVec.ofNat 11 (exponent + 1075).toNat ≠ -1#11 := by
      rw [← BitVec.toNat_ne_iff_ne, field]
      show _ ≠ 2047
      omega
    rw [if_pos (by rw [bits]), unpack_packComponents, if_neg ordinary, if_neg some]
    congr 1
    · rw [BitVec.toNat_ofNat]
      omega
    · omega
  · have small : (BitVec.ofNat 52 mantissa).toNat = mantissa := by
      rw [BitVec.toNat_ofNat, Nat.mod_eq_of_lt (by omega)]
    have bits : mantissa.log2 < 52 := (Nat.log2_lt positive.ne').mpr (by omega)
    rw [if_neg (by omega), unpack_packComponents, if_neg (by decide), if_pos rfl,
      dif_pos (lt_of_lt_of_eq positive small.symm)]
    congr 1
    exact (canonical.full.resolve_left full).symm

theorem unpack_pack_of_overflow {mantissa : ℕ} {exponent : ℤ}
    (positive : 0 < mantissa) (great : 971 < exponent) :
    (Float.Model.pack (.finite sign mantissa exponent positive)).unpack = .infinity sign := by
  show UnpackedFloat.unpack _ (UnpackedFloat.pack _ _) = _
  rw [pack_finite, if_pos (show 2 ^ 11 ≤ (exponent + 1075).toNat + 1 by omega)]
  cases sign <;> rfl

/-! ### Numbers that are held exactly -/

theorem scaled_pos {mantissa : ℕ} (positive : 0 < mantissa) (exponent : ℤ) :
    0 < scaled mantissa exponent :=
  mul_pos (by exact_mod_cast positive) (zpow_pos two_pos exponent)

theorem Holds.pos (holds : Holds sign exact value) : 0 < exact := by
  obtain ⟨mantissa, exponent, positive, _, rfl⟩ := holds
  exact scaled_pos positive exponent

/-- A number that is held exactly is nearest to itself. -/
theorem Holds.rounds (holds : Holds sign exact value) : Rounds sign exact value := by
  obtain ⟨mantissa, exponent, positive, finite, rfl⟩ := holds
  have canonical := (canonical_of_unpack finite).1
  refine ⟨mantissa, ?_, ?_⟩
  · rw [canonical.lastPlace_scaled, scaled, mul_div_cancel_right₀ _ (zpow_ne_zero _ two_ne_zero)]
    exact nearest_natCast mantissa
  · rw [canonical.lastPlace_scaled, kept, dif_pos positive, if_pos canonical.upper, ← finite,
      ofModel_pack_unpack]

theorem holds_pack {mantissa : ℕ} {exponent : ℤ} (canonical : Canonical mantissa exponent)
    (fits : exponent ≤ 971) : Holds sign (scaled mantissa exponent)
      (.ofModel (.pack (.finite sign mantissa exponent canonical.positive))) :=
  ⟨mantissa, exponent, canonical.positive,
    unpack_pack_of_canonical canonical.positive canonical fits, rfl⟩

/-- What is nearest to a number that can be held exactly holds it. -/
theorem Rounds.holds {mantissa : ℕ} {exponent : ℤ}
    (rounds : Rounds sign (scaled mantissa exponent) value)
    (canonical : Canonical mantissa exponent) (fits : exponent ≤ 971) :
    Holds sign (scaled mantissa exponent) value := by
  have held : Holds sign (scaled mantissa exponent) _ := holds_pack canonical fits
  rw [rounds.unique held.rounds]
  exact held

theorem Holds.unique {second : Float} (left : Holds sign exact value)
    (right : Holds sign exact second) : value = second :=
  left.rounds.unique right.rounds

theorem Holds.abs (holds : Holds sign exact value) : Holds .positive exact value.abs := by
  obtain ⟨mantissa, exponent, positive, finite, rfl⟩ := holds
  obtain ⟨canonical, fits⟩ := canonical_of_unpack finite
  refine ⟨mantissa, exponent, positive, ?_, rfl⟩
  show (Float.Model.pack value.toModel.unpack.abs).unpack = _
  rw [finite]
  exact unpack_pack_of_canonical positive canonical fits

theorem Holds.neg (holds : Holds sign exact value) : Holds (-sign) exact (-value) := by
  obtain ⟨mantissa, exponent, positive, finite, rfl⟩ := holds
  obtain ⟨canonical, fits⟩ := canonical_of_unpack finite
  refine ⟨mantissa, exponent, positive, ?_, rfl⟩
  show (Float.Model.pack value.toModel.unpack.neg).unpack = _
  rw [finite]
  exact unpack_pack_of_canonical positive canonical fits

theorem holds_one : Holds .positive 1 1 :=
  ⟨2 ^ 52, -52, by decide, rfl, by norm_num [scaled]⟩

/-- A number that is held is a multiple of the least one. -/
theorem Holds.exists_units (holds : Holds sign exact value) :
    ∃ units : ℕ, exact = units * 2 ^ (-1074 : ℤ) := by
  obtain ⟨mantissa, exponent, positive, finite, rfl⟩ := holds
  obtain ⟨count, place⟩ := Int.le.dest (canonical_of_unpack finite).1.least
  refine ⟨mantissa * 2 ^ count, ?_⟩
  rw [scaled, ← place, Nat.cast_mul, Nat.cast_pow, mul_assoc, Nat.cast_ofNat, pow_mul_zpow,
    add_comm]

/-- A finite number that is not zero is exactly a magnitude with a sign. -/
theorem exists_holds (finite : value.isFinite = true) (nonzero : (value == 0) = false) :
    ∃ sign exact, Holds sign exact value := by
  replace finite : value.toModel.unpack.isFinite = true := finite
  cases unpacked : value.toModel.unpack with
  | notANumber | infinity sign =>
    rw [unpacked] at finite
    cases finite
  | zero sign =>
    have same := ofModel_pack_unpack value
    rw [unpacked] at same
    rw [← same] at nonzero
    cases sign with
    | negative => exact absurd nonzero (by decide +kernel)
    | positive => exact absurd nonzero (by decide +kernel)
  | finite sign mantissa place positive =>
    exact ⟨sign, _, mantissa, place, positive, unpacked, rfl⟩

/-- No number that is held is above the greatest one. -/
theorem Holds.lt_zpow (holds : Holds sign exact value) : exact < 2 ^ (1024 : ℤ) := by
  obtain ⟨mantissa, exponent, positive, finite, rfl⟩ := holds
  obtain ⟨canonical, fits⟩ := canonical_of_unpack finite
  have room : (mantissa : ℚ) < 2 ^ 53 := by exact_mod_cast canonical.upper
  have unit : (0 : ℚ) < 2 ^ exponent := zpow_pos two_pos exponent
  calc scaled mantissa exponent < 2 ^ 53 * 2 ^ exponent := mul_lt_mul_of_pos_right room unit
    _ = 2 ^ (53 + exponent) := pow_mul_zpow 53 exponent
    _ ≤ 2 ^ (1024 : ℤ) := zpow_le_zpow_right₀ one_le_two (by omega)

theorem Holds.isFinite (holds : Holds sign exact value) : value.isFinite = true := by
  obtain ⟨mantissa, exponent, positive, finite, rfl⟩ := holds
  show value.toModel.unpack.isFinite = true
  rw [finite]
  rfl

/-! ### Quotients and products -/

theorem scaled_div (first second : ℕ) (left right : ℤ) :
    scaled first left / scaled second right = first / second * 2 ^ (left - right) := by
  rw [scaled, scaled, mul_div_mul_comm, zpow_sub₀ two_ne_zero]

theorem scaled_mul (first second : ℕ) (left right : ℤ) :
    scaled first left * scaled second right = scaled (first * second) (left + right) := by
  rw [scaled, scaled, scaled, zpow_add₀ two_ne_zero, Nat.cast_mul]
  ring

/-- The leading bit of a quotient is at most one below the difference of the leading bits. -/
theorem le_log_div {first second : ℕ} (dividend : 0 < first) (divisor : 0 < second)
    (left right : ℤ) :
    totalExponent first left - totalExponent second right - 1 ≤
      Int.log 2 (scaled first left / scaled second right) := by
  have some := scaled_pos dividend left
  have other := scaled_pos divisor right
  rw [← zpow_le_iff (div_pos some other), le_div_iff₀ other]
  have below : scaled second right < 2 ^ (Int.log 2 (scaled second right) + 1) :=
    (lt_zpow_iff other _).mpr (lt_add_one _)
  have above : 2 ^ Int.log 2 (scaled first left) ≤ scaled first left :=
    (zpow_le_iff some _).mpr le_rfl
  refine le_trans ?_ above
  refine le_trans (mul_le_mul_of_nonneg_left below.le (zpow_pos two_pos _).le) ?_
  rw [← zpow_add₀ two_ne_zero, log_scaled dividend, log_scaled divisor, totalExponent,
    totalExponent]
  exact zpow_le_zpow_right₀ one_le_two (by omega)

/-- The quotient of two numbers is the number nearest to their exact quotient. -/
theorem rounds_div {first second : ℕ} (dividend : 0 < first) (divisor : 0 < second)
    (left right : ℤ) (above below : Sign) :
    Rounds (above / below) (scaled first left / scaled second right)
      (.ofModel (.pack (UnpackedFloat.div Format.binary64 (.finite above first left dividend)
        (.finite below second right divisor)))) := by
  have some := div_pos (scaled_pos dividend left) (scaled_pos divisor right)
  have target : Format.binary64.targetExponent
      (totalExponent first left - totalExponent second right) =
      max (totalExponent first left - totalExponent second right - 53) (-1074) := rfl
  have bound := le_log_div dividend divisor left right
  rw [UnpackedFloat.div, UnpackedFloat.divCore]
  dsimp only
  rw [target]
  generalize place : min (left - right)
    (max (totalExponent first left - totalExponent second right - 53) (-1074)) = exponent
  obtain ⟨count, shift⟩ := Int.le.dest (show exponent ≤ left - right by omega)
  have steps : (left - right - exponent).toNat = count := by omega
  rw [steps]
  refine rounds_roundWithAccuracy _ some ?_ ?_
  · have represents := represents_quotient (first <<< count) divisor
    have exact : scaled first left / scaled second right / 2 ^ exponent =
        ((first <<< count : ℕ) : ℚ) / second := by
      rw [scaled_div, ← shift, zpow_add₀ two_ne_zero, zpow_natCast, Nat.shiftLeft_eq]
      push_cast
      field_simp
    rwa [exact]
  · rw [lastPlace]
    omega

/-- The product of two numbers is the number nearest to their exact product, if one of them has
enough bits for it to be rounded. -/
theorem rounds_mul {first second : ℕ} (left : 0 < first) (right : 0 < second)
    (large : 2 ^ 52 ≤ first * second) (place other : ℤ) (sign extra : Sign) :
    Rounds (sign * extra) (scaled first place * scaled second other)
      (.ofModel (.pack (UnpackedFloat.mul Format.binary64 (.finite sign first place left)
        (.finite extra second other right)))) := by
  have positive : 0 < first * second := Nat.mul_pos left right
  have bits : 52 ≤ (first * second).log2 := (Nat.le_log2 positive.ne').mpr large
  rw [scaled_mul]
  refine rounds_roundWithAccuracy _ (scaled_pos positive _) ?_ ?_
  · rw [scaled, mul_div_cancel_right₀ _ (zpow_ne_zero _ two_ne_zero)]
    exact represents_exact _
  · rw [lastPlace, log_scaled positive]
    omega

theorem Holds.rounds_div {divisor : Float} {above below : Sign}
    (dividend : Holds above exact value) (holds : Holds below other divisor) :
    Rounds (above / below) (exact / other) (value / divisor) := by
  obtain ⟨first, left, some, finite, rfl⟩ := dividend
  obtain ⟨second, right, nonzero, also, rfl⟩ := holds
  have quotient := Floating.rounds_div some nonzero left right above below
  rw [← finite, ← also] at quotient
  exact quotient

/-- The product with a number that is not tiny is the number nearest to the exact product. -/
theorem Holds.rounds_mul {factor : Float} {extra : Sign} (first : Holds sign exact value)
    (second : Holds extra other factor) (large : 1 ≤ other) :
    Rounds (sign * extra) (exact * other) (value * factor) := by
  obtain ⟨mantissa, place, some, finite, rfl⟩ := first
  obtain ⟨more, shift, also, known, rfl⟩ := second
  have canonical := (canonical_of_unpack known).1
  have full : 2 ^ 52 ≤ more := by
    refine canonical.full.resolve_right fun least => ?_
    -- No number with the least exponent is as great as one.
    have bits : more.log2 < 53 := (Nat.log2_lt also.ne').mpr canonical.upper
    rw [← zpow_zero 2, zpow_le_iff (scaled_pos also shift), log_scaled also] at large
    omega
  have product := Floating.rounds_mul some also (le_trans full (Nat.le_mul_of_pos_left more some))
    place shift sign extra
  rw [← finite, ← known] at product
  exact product

/-! ### Finite numbers -/

theorem isFinite_pack (mantissa : ℕ) (exponent : ℤ) (canonical : Canonical mantissa exponent) :
    (Float.ofModel (.pack (.finite sign mantissa exponent canonical.positive))).isFinite = true ↔
      exponent ≤ 971 := by
  show (Float.Model.pack _).unpack.isFinite = true ↔ _
  by_cases fits : exponent ≤ 971
  · rw [unpack_pack_of_canonical canonical.positive canonical fits]
    exact ⟨fun _ => fits, fun _ => rfl⟩
  · rw [unpack_pack_of_overflow canonical.positive (not_le.mp fits)]
    exact ⟨nofun, fun fits' => absurd fits' fits⟩

/-- What is kept of a number is canonical, and not too great unless its last place is too high after
a carry. -/
theorem exists_canonical_kept {place : ℤ} (sign : Sign) (positive : 0 < whole)
    (least : -1074 ≤ place) (room : whole ≤ 2 ^ 53) (full : 2 ^ 52 ≤ whole ∨ place = -1074) :
    ∃ (mantissa : ℕ) (exponent : ℤ) (canonical : Canonical mantissa exponent),
      kept sign whole place = .finite sign mantissa exponent canonical.positive ∧
        (exponent ≤ 971 ↔ place < 971 ∨ place = 971 ∧ whole < 2 ^ 53) := by
  rw [kept, dif_pos positive]
  by_cases small : whole < 2 ^ 53
  · rw [if_pos small]
    exact ⟨whole, place, ⟨positive, small, least, full⟩, rfl, by omega⟩
  · rw [if_neg small]
    exact ⟨2 ^ 52, place + 1, ⟨by decide, by decide, by omega, .inl le_rfl⟩, rfl, by omega⟩

theorem isFinite_kept_iff (sign : Sign) (some : 0 < exact)
    (nearest : Nearest (exact / 2 ^ lastPlace exact) whole) :
    (Float.ofModel (.pack (kept sign whole (lastPlace exact)))).isFinite = true ↔
      lastPlace exact < 971 ∨ lastPlace exact = 971 ∧ whole < 2 ^ 53 := by
  obtain ⟨room, full⟩ := room_of_nearest some nearest
  rcases Nat.eq_zero_or_pos whole with rfl | positive
  · have zero : (Float.Model.pack (.zero sign)).unpack.isFinite = true := by
      cases sign <;> rfl
    exact ⟨fun _ => .inl (by omega), fun _ => zero⟩
  · obtain ⟨mantissa, exponent, canonical, equal, iff⟩ :=
      exists_canonical_kept sign positive (least_le_lastPlace exact) room full
    rw [equal, isFinite_pack mantissa exponent canonical, iff]

/-- The number nearest to an exact one is finite if the exact one is less than half of a last place
above the greatest finite number. -/
theorem Rounds.isFinite_iff (rounds : Rounds sign exact value) (some : 0 < exact) :
    value.isFinite = true ↔ exact < 2 ^ (1024 : ℤ) - 2 ^ (970 : ℤ) := by
  obtain ⟨whole, nearest, rfl⟩ := rounds
  have below := div_lastPlace_lt some
  have above := le_div_lastPlace some
  rw [isFinite_kept_iff sign some nearest]
  generalize lastPlace exact = place at *
  have power : (0 : ℚ) < 2 ^ place := zpow_pos two_pos place
  have greatest : (2 : ℚ) ^ (1024 : ℤ) = 2 ^ 54 * 2 ^ (970 : ℤ) := (pow_mul_zpow 54 970).symm
  have unit : (0 : ℚ) < 2 ^ (970 : ℤ) := zpow_pos two_pos 970
  rw [greatest]
  rcases lt_trichotomy place 971 with low | rfl | high
  · have bound : (2 : ℚ) ^ place ≤ 2 ^ (970 : ℤ) := zpow_le_zpow_right₀ one_le_two (by omega)
    rw [div_lt_iff₀ power] at below
    generalize (2 : ℚ) ^ (970 : ℤ) = last at *
    refine ⟨fun _ => ?_, fun _ => .inl low⟩
    linarith
  · have twice : (2 : ℚ) ^ (971 : ℤ) = 2 ^ 1 * 2 ^ (970 : ℤ) := (pow_mul_zpow 1 970).symm
    have edge := nearest.lt_iff (by decide : Even (2 ^ 53))
    rw [twice] at edge power
    generalize (2 : ℚ) ^ (970 : ℤ) = last at *
    rw [div_lt_iff₀ power] at edge
    simp only [lt_irrefl, true_and, false_or, edge]
    push_cast
    constructor <;> intro bound <;> linarith
  · have bound : (2 : ℚ) ^ (972 : ℤ) ≤ 2 ^ place := zpow_le_zpow_right₀ one_le_two (by omega)
    have twice : (2 : ℚ) ^ (972 : ℤ) = 2 ^ 2 * 2 ^ (970 : ℤ) := (pow_mul_zpow 2 970).symm
    have reached := above (by omega)
    rw [le_div_iff₀ power] at reached
    rw [twice] at bound
    generalize (2 : ℚ) ^ (970 : ℤ) = last at *
    refine ⟨fun low => absurd low (by omega), fun small => ?_⟩
    linarith

theorem zero_lt_of_unpack
    (above : value.toModel.unpack = .infinity .positive ∨
      ∃ mantissa exponent positive, value.toModel.unpack =
        .finite .positive mantissa exponent positive) : 0 < value := by
  have zero : (0 : Float).toModel.unpack = .zero .positive := rfl
  refine decide_eq_true (?_ : ((0 : Float).toModel.unpack.compare value.toModel.unpack ==
    Option.some .lt) = true)
  rw [zero]
  rcases above with infinite | ⟨mantissa, exponent, positive, finite⟩
  · rw [infinite]
    rfl
  · rw [finite]
    rfl

theorem zero_lt_pack {mantissa : ℕ} {exponent : ℤ} (canonical : Canonical mantissa exponent) :
    0 < Float.ofModel (.pack (.finite .positive mantissa exponent canonical.positive)) := by
  refine zero_lt_of_unpack ?_
  by_cases fits : exponent ≤ 971
  · exact .inr ⟨_, _, _, unpack_pack_of_canonical canonical.positive canonical fits⟩
  · exact .inl (unpack_pack_of_overflow canonical.positive (not_le.mp fits))

/-- A number that is not below the least one is not rounded to zero. -/
theorem Rounds.zero_lt (rounds : Rounds .positive exact value) (some : 2 ^ (-1074 : ℤ) ≤ exact) :
    0 < value := by
  obtain ⟨whole, nearest, rfl⟩ := rounds
  have positive : 0 < exact := lt_of_lt_of_le (zpow_pos two_pos _) some
  obtain ⟨room, full⟩ := room_of_nearest positive nearest
  have nonzero : 1 ≤ whole := by
    rcases full with full | least
    · exact le_trans (by decide) full
    · refine (nearest_natCast 1).mono nearest ?_
      rw [least, le_div_iff₀ (zpow_pos two_pos _), Nat.cast_one, one_mul]
      exact some
  obtain ⟨mantissa, exponent, canonical, equal, _⟩ :=
    exists_canonical_kept .positive nonzero (least_le_lastPlace exact) room full
  rw [equal]
  exact zero_lt_pack canonical

/-! ### The order of finite numbers -/

theorem Canonical.scaled_lt_of_lt {first second : ℕ} {left right : ℤ}
    (canonical : Canonical first left) (also : Canonical second right) (below : left < right) :
    scaled first left < scaled second right := by
  have least := canonical.least
  have full : (2 : ℚ) ^ 52 ≤ second := by exact_mod_cast also.full.resolve_right (by omega)
  have room : (first : ℚ) < 2 ^ 53 := by exact_mod_cast canonical.upper
  have step : (2 : ℚ) ^ 1 * 2 ^ left ≤ 2 ^ right := by
    rw [pow_mul_zpow]
    exact zpow_le_zpow_right₀ one_le_two (by omega)
  have unit : (0 : ℚ) < 2 ^ left := zpow_pos two_pos left
  calc scaled first left < 2 ^ 53 * 2 ^ left := mul_lt_mul_of_pos_right room unit
    _ = 2 ^ 52 * (2 ^ 1 * 2 ^ left) := by ring
    _ ≤ second * 2 ^ right := mul_le_mul full step (by positivity) (by positivity)

/-- Canonical numbers are compared by their exponents, and by their mantissas if these agree. -/
theorem Canonical.scaled_lt_iff {first second : ℕ} {left right : ℤ}
    (canonical : Canonical first left) (also : Canonical second right) :
    scaled first left < scaled second right ↔ left < right ∨ left = right ∧ first < second := by
  rcases lt_trichotomy left right with below | rfl | above
  · exact iff_of_true (canonical.scaled_lt_of_lt also below) (.inl below)
  · have unit : (0 : ℚ) < 2 ^ left := zpow_pos two_pos left
    rw [scaled, scaled, mul_lt_mul_iff_left₀ unit]
    simp
  · have reverse := also.scaled_lt_of_lt canonical above
    exact iff_of_false reverse.not_gt (by omega)

theorem Holds.lt_iff {second : Float} (left : Holds .positive exact value)
    (right : Holds .positive other second) : value < second ↔ exact < other := by
  obtain ⟨mantissa, exponent, positive, finite, rfl⟩ := left
  obtain ⟨more, greater, also, known, rfl⟩ := right
  have compared : value < second ↔
      ((compare exponent greater).then (compare mantissa more)) = .lt := by
    have meaning : value < second ↔
        (value.toModel.unpack.compare second.toModel.unpack == some .lt) = true :=
      decide_eq_true_iff
    rw [meaning, finite, known, UnpackedFloat.compare]
    simp
  rw [compared, (canonical_of_unpack finite).1.scaled_lt_iff (canonical_of_unpack known).1]
  rw [Ordering.then_eq_lt, compare_lt_iff_lt, compare_eq_iff_eq, compare_lt_iff_lt]

end UnitSheet.Floating
