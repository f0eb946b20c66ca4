/-
This file says which number is written when a count of decimal places is asked for.

The number is rounded twice: to the floating-point number nearest to the decimal, and from that to
the decimal again. The second rounding undoes the first (`decimalUnits_roundedTo`). Where binary
places are finer than decimal ones, the floating-point number is less than half a decimal place away
from the decimal; where they are coarser, the number that is rounded is itself the floating-point
number nearest to the decimal. What is written is therefore the nearest decimal, and it is a plain
numeral with no more digits than it needs (`exists_formatFixed`).
-/

import UnitSheet.Decimal.Fixed
import UnitSheet.Proofs.Spelling

namespace UnitSheet.Decimal

open Floating (Nearest Canonical scaled lastPlace)

variable {exact : ℚ} {whole : ℕ}

/-! ### Quotients -/

theorem nearest_zero : Nearest 0 0 := by
  exact_mod_cast Floating.nearest_natCast 0

/-- A quotient is rounded to the nearest natural number. -/
theorem nearest_roundHalfEven (numerator : ℕ) {denominator : ℕ} (positive : 0 < denominator) :
    Nearest ((numerator : ℚ) / denominator) (roundHalfEven numerator denominator) := by
  have cast : (0 : ℚ) < denominator := by exact_mod_cast positive
  obtain ⟨upper, lower⟩ := roundHalfEven_near numerator denominator positive
  have tie := roundHalfEven_tie numerator denominator positive
  generalize roundHalfEven numerator denominator = rounded at *
  have shifted (count : ℚ) : count = numerator / denominator + 1 / 2 ↔
      2 * (count * denominator) = 2 * numerator + denominator := by
    field_simp
  have half (count : ℚ) : (numerator : ℚ) / denominator = count + 1 / 2 ↔
      2 * numerator = 2 * (count * denominator) + denominator := by
    field_simp
  refine ⟨?_, ?_, fun middle => Nat.even_iff.mpr (tie ?_)⟩
  · have bound : (2 : ℚ) * (rounded * denominator) ≤ 2 * numerator + denominator := by
      exact_mod_cast upper
    rw [← sub_le_iff_le_add, le_div_iff₀ cast]
    linarith
  · have bound : (2 : ℚ) * numerator ≤ 2 * (rounded * denominator) + denominator := by
      exact_mod_cast lower
    rw [div_le_iff₀ cast]
    linarith
  · rw [shifted, half] at middle
    exact_mod_cast middle

theorem twoTo_div_twoTo (exponent : ℤ) :
    ((twoTo exponent.toNat : ℕ) : ℚ) / (twoTo (-exponent).toNat : ℕ) = 2 ^ exponent := by
  have power : ∀ count : ℕ, ((twoTo count : ℕ) : ℚ) = 2 ^ (count : ℤ) := by
    intro count
    rw [zpow_natCast]
    exact_mod_cast rfl
  rw [power, power, ← zpow_sub₀ two_ne_zero]
  congr 1
  omega

theorem cast_tenTo (count : ℕ) : ((tenTo count : ℕ) : ℚ) = 10 ^ count := by
  exact_mod_cast rfl

namespace Binary

/-- The magnitude of a number. -/
def magnitude (exact : Binary) : ℚ :=
  scaled exact.significand exact.exponent

theorem numerator_div_denominator (exact : Binary) :
    (exact.numerator : ℚ) / exact.denominator = exact.magnitude := by
  rw [numerator, denominator, Nat.cast_mul, mul_div_assoc, twoTo_div_twoTo]
  rfl

/-- The leading bit of a quotient is found from the leading bits of its two numbers. -/
theorem leadingBit_eq {numerator denominator : ℕ} (some : 0 < numerator)
    (positive : 0 < denominator) :
    leadingBit numerator denominator = Int.log 2 ((numerator : ℚ) / denominator) := by
  have above : (0 : ℚ) < numerator := by exact_mod_cast some
  have below : (0 : ℚ) < denominator := by exact_mod_cast positive
  have ratio := div_pos above below
  have lower : (numerator.log2 : ℤ) - denominator.log2 - 1 ≤
      Int.log 2 ((numerator : ℚ) / denominator) := by
    have bound := Floating.le_log_div some positive 0 0
    simp only [scaled, zpow_zero, mul_one, Float.Model.totalExponent] at bound
    omega
  have upper : Int.log 2 ((numerator : ℚ) / denominator) <
      (numerator.log2 : ℤ) - denominator.log2 + 1 := by
    rw [← Floating.lt_zpow_iff ratio, div_lt_iff₀ below]
    have left : (numerator : ℚ) < 2 ^ (numerator.log2 + 1) := by exact_mod_cast Nat.lt_log2_self
    have right : (2 : ℚ) ^ denominator.log2 ≤ denominator := by
      exact_mod_cast Nat.log2_self_le positive.ne'
    refine lt_of_lt_of_le left (le_trans (le_of_eq ?_)
      (mul_le_mul_of_nonneg_left right (zpow_pos two_pos _).le))
    rw [← zpow_natCast, ← zpow_natCast, ← zpow_add₀ two_ne_zero]
    congr 1
    omega
  rw [leadingBit]
  generalize estimate : (numerator.log2 : ℤ) - denominator.log2 = leading at lower upper
  have test : numerator * twoTo (-leading).toNat < denominator * twoTo leading.toNat ↔
      (numerator : ℚ) / denominator < 2 ^ leading := by
    rw [← twoTo_div_twoTo, div_lt_div_iff₀ below (by exact_mod_cast twoTo_pos _), ← Nat.cast_mul,
      ← Nat.cast_mul, Nat.cast_lt, Nat.mul_comm denominator]
  simp only [test, Floating.lt_zpow_iff ratio]
  split <;> omega

/-- The floating-point number nearest to a quotient has the last place that belongs to it. -/
theorem exponent_nearest {numerator denominator : ℕ} (negative : Bool) (some : 0 < numerator)
    (positive : 0 < denominator) :
    (nearest negative numerator denominator).exponent =
      lastPlace ((numerator : ℚ) / denominator) := by
  rw [lastPlace, ← leadingBit_eq some positive, max_comm]
  rfl

theorem nearest_significand (negative : Bool) (numerator : ℕ) {denominator : ℕ}
    (positive : 0 < denominator) :
    Nearest ((numerator : ℚ) / denominator /
        2 ^ (nearest negative numerator denominator).exponent)
      (nearest negative numerator denominator).significand := by
  rw [nearest]
  dsimp only
  generalize max (-1074) (leadingBit numerator denominator - 52) = place
  have rounded := nearest_roundHalfEven (numerator * twoTo (-place).toNat)
    (Nat.mul_pos positive (twoTo_pos place.toNat))
  have power := twoTo_div_twoTo (-place)
  rw [neg_neg, zpow_neg] at power
  rwa [Nat.cast_mul, Nat.cast_mul, mul_div_mul_comm, power, ← div_eq_mul_inv] at rounded

theorem nearest_decimalUnits (exact : Binary) (places : ℕ) :
    Nearest (exact.magnitude * 10 ^ places) (exact.decimalUnits places) := by
  have rounded := nearest_roundHalfEven (exact.numerator * tenTo places) exact.denominator_pos
  rwa [Nat.cast_mul, mul_div_right_comm, numerator_div_denominator, cast_tenTo] at rounded

end Binary

/-! ### Rounding twice -/

section Twice

variable {mantissa units kept places : ℕ} {exponent place : ℤ}

/-- A floating-point number next to a decimal is rounded to that decimal if its places are finer
than those of the decimal. -/
theorem nearest_of_fine (fine : (2 : ℚ) ^ place * 10 ^ places < 1)
    (nearest : Nearest ((units : ℚ) / 10 ^ places / 2 ^ place) kept) :
    Nearest (scaled kept place * 10 ^ places) units := by
  have unit : (0 : ℚ) < 2 ^ place * 10 ^ places := by positivity
  have quotient : (units : ℚ) / 10 ^ places / 2 ^ place = units / (2 ^ place * 10 ^ places) := by
    rw [div_div, mul_comm (10 ^ places : ℚ)]
  have lower := nearest.lower
  have upper := nearest.upper
  rw [quotient, ← sub_le_iff_le_add, le_div_iff₀ unit] at lower
  rw [quotient, div_le_iff₀ unit] at upper
  rw [scaled, mul_assoc]
  exact Floating.nearest_of_lt (by linarith) (by linarith)

/-- So it is if the places are the same. -/
theorem nearest_of_same (same : (2 : ℚ) ^ place * 10 ^ places = 1)
    (nearest : Nearest ((units : ℚ) / 10 ^ places / 2 ^ place) kept) :
    Nearest (scaled kept place * 10 ^ places) units := by
  rw [div_div, mul_comm (10 ^ places : ℚ), same, div_one] at nearest
  rw [scaled, mul_assoc, same, mul_one, nearest.unique (Floating.nearest_natCast units)]
  exact Floating.nearest_natCast units

/-- A number that is rounded to a decimal with finer places than those of the number is the
floating-point number next to that decimal. -/
theorem eq_of_coarse (canonical : Canonical mantissa exponent)
    (decimal : Nearest (scaled mantissa exponent * 10 ^ places) units) (some : 0 < units)
    (last : place = lastPlace ((units : ℚ) / 10 ^ places))
    (coarse : 1 < (2 : ℚ) ^ place * 10 ^ places)
    (nearest : Nearest ((units : ℚ) / 10 ^ places / 2 ^ place) kept) :
    scaled kept place = scaled mantissa exponent := by
  have ten : (0 : ℚ) < 10 ^ places := by positivity
  have two : (0 : ℚ) < 2 ^ place := zpow_pos two_pos place
  -- The number and the decimal are less than half a binary place apart.
  have above : (units : ℚ) / 10 ^ places < scaled mantissa exponent + 2 ^ place / 2 := by
    rw [div_lt_iff₀ ten]
    linarith [decimal.lower]
  have below : scaled mantissa exponent - 2 ^ place / 2 < (units : ℚ) / 10 ^ places := by
    rw [lt_div_iff₀ ten]
    linarith [decimal.upper]
  have finer : place ≤ exponent := by
    by_contra greater
    have positive : (0 : ℚ) < units / 10 ^ places := div_pos (by exact_mod_cast some) ten
    have least := canonical.least
    have full := Floating.le_div_lastPlace positive (by omega)
    rw [← last, le_div_iff₀ two] at full
    -- Below the leading bit of the decimal there are all the numbers of the finer place.
    have room : (mantissa : ℚ) + 1 ≤ 2 ^ 53 := by exact_mod_cast canonical.upper
    have step : (2 : ℚ) ^ exponent ≤ 2 ^ place / 2 := by
      rw [div_eq_mul_inv, ← zpow_sub_one₀ two_ne_zero]
      exact zpow_le_zpow_right₀ one_le_two (by omega)
    have small : scaled mantissa exponent + 2 ^ exponent ≤ 2 ^ 53 * 2 ^ exponent := by
      rw [scaled, ← add_one_mul]
      exact mul_le_mul_of_nonneg_right room (zpow_pos two_pos _).le
    linarith
  obtain ⟨count, split⟩ := Int.le.dest finer
  have multiple : scaled mantissa exponent = (mantissa * 2 ^ count : ℕ) * 2 ^ place := by
    rw [scaled, ← split, add_comm, Nat.cast_mul, Nat.cast_pow, Nat.cast_ofNat, mul_assoc,
      Floating.pow_mul_zpow]
  have back : kept = mantissa * 2 ^ count := by
    refine nearest.unique (Floating.nearest_of_lt ?_ ?_)
    · rw [← sub_lt_iff_lt_add, lt_div_iff₀ two]
      linarith
    · rw [div_lt_iff₀ two]
      linarith
  rw [multiple, back, scaled]

end Twice

namespace Binary

/-- A number that is zero or has the bits of a floating-point number. -/
def Fits (exact : Binary) : Prop :=
  exact.significand = 0 ∨ Canonical exact.significand exact.exponent

/-- Rounding to the floating-point number nearest to a decimal does not change the decimal. -/
theorem decimalUnits_roundedTo {exact : Binary} (fits : exact.Fits) (places : ℕ) :
    (exact.roundedTo places).decimalUnits places = exact.decimalUnits places := by
  have decimal := exact.nearest_decimalUnits places
  have again := (exact.roundedTo places).nearest_decimalUnits places
  refine again.unique ?_
  have significand := nearest_significand exact.negative (exact.decimalUnits places)
    (tenTo_pos places)
  have last := fun some => @exponent_nearest (exact.decimalUnits places) _ exact.negative some
    (tenTo_pos places)
  rw [cast_tenTo] at significand last
  rw [magnitude, roundedTo]
  generalize nearest exact.negative (exact.decimalUnits places) (tenTo places) = rounded at *
  generalize exact.decimalUnits places = units at *
  rcases lt_trichotomy ((2 : ℚ) ^ rounded.exponent * 10 ^ places) 1 with fine | same | coarse
  · exact nearest_of_fine fine significand
  · exact nearest_of_same same significand
  · rcases Nat.eq_zero_or_pos units with rfl | some
    · rw [Nat.cast_zero, zero_div, zero_div] at significand
      rw [significand.unique nearest_zero, scaled, Nat.cast_zero, zero_mul, zero_mul]
      exact nearest_zero
    · rcases fits with zero | canonical
      · rw [magnitude, scaled, zero, Nat.cast_zero, zero_mul, zero_mul] at decimal
        exact absurd (decimal.unique nearest_zero) some.ne'
      · rw [eq_of_coarse canonical decimal some (last some) coarse significand]
        exact decimal

end Binary

theorem fits_of_classify {number : Float} {exact : Binary}
    (classified : classify number = .finite exact) : exact.Fits := by
  rw [classify_eq] at classified
  split at classified
  · cases classified
  · cases classified
  · cases classified
    exact .inl rfl
  · rename_i finite
    cases classified
    exact .inr (Floating.canonical_of_unpack finite).1

theorem exists_classify_eq_finite {number : Float} (finite : number.isFinite = true) :
    ∃ exact, classify number = .finite exact := by
  replace finite : number.toModel.unpack.isFinite = true := finite
  rw [classify_eq]
  cases unpacked : number.toModel.unpack with
  | notANumber | infinity sign =>
    rw [unpacked] at finite
    cases finite
  | zero sign | finite sign mantissa exponent positive => exact ⟨_, rfl⟩

/-! ### The nearest multiple -/

/-- A multiple of a unit is nearest to a number; of two equally near ones it is the even one. -/
structure NearestMultiple (unit exact : ℚ) (count : ℤ) : Prop where
  near : ∀ other : ℤ, |exact - count * unit| ≤ |exact - other * unit|
  even : ∀ other ≠ count, |exact - other * unit| = |exact - count * unit| → Even count

theorem NearestMultiple.neg {unit : ℚ} {count : ℤ} (nearest : NearestMultiple unit exact count) :
    NearestMultiple unit (-exact) (-count) := by
  have mirror : ∀ other : ℤ, |-exact - other * unit| = |exact - (-other : ℤ) * unit| := by
    intro other
    rw [← abs_neg, Int.cast_neg]
    congr 1
    ring
  refine ⟨fun other => ?_, fun other differs tie => ?_⟩
  · rw [mirror, mirror, neg_neg]
    exact nearest.near _
  · rw [mirror, mirror, neg_neg] at tie
    exact (nearest.even (-other) (fun same => differs (by rw [← same, neg_neg])) tie).neg

/-- A natural number nearest to a quotient counts the units nearest to the dividend. -/
theorem nearestMultiple_of_nearest {unit : ℚ} (positive : 0 < unit)
    (nearest : Nearest (exact / unit) whole) : NearestMultiple unit exact whole := by
  have scale : ∀ other : ℤ, |exact - other * unit| = |exact / unit - other| * unit := by
    intro other
    rw [← abs_of_pos positive, ← abs_mul, abs_of_pos positive, sub_mul,
      div_mul_cancel₀ _ positive.ne']
  have half : |exact / unit - (whole : ℤ)| ≤ 1 / 2 := by
    rw [Int.cast_natCast, abs_le]
    exact ⟨by linarith [nearest.lower], by linarith [nearest.upper]⟩
  -- Two different multiples are at least one unit apart, so the other one is half a unit away.
  have apart : ∀ other : ℤ, other ≠ whole → 1 / 2 ≤ |exact / unit - other| := by
    intro other differs
    have one : (1 : ℚ) ≤ |((whole : ℤ) : ℚ) - other| := by
      exact_mod_cast Int.one_le_abs (sub_ne_zero.mpr differs.symm)
    have through := abs_sub_le ((whole : ℤ) : ℚ) (exact / unit) other
    rw [abs_sub_comm _ (exact / unit)] at through
    linarith
  refine ⟨fun other => ?_, fun other differs tie => ?_⟩
  · rw [scale, scale]
    refine mul_le_mul_of_nonneg_right ?_ positive.le
    by_cases same : other = whole
    · rw [same]
    · exact le_trans half (apart other same)
  · rw [scale, scale] at tie
    have equal := mul_right_cancel₀ positive.ne' tie
    have middle : |exact / unit - (whole : ℤ)| = 1 / 2 :=
      le_antisymm half (equal ▸ apart other differs)
    rw [Int.cast_natCast] at middle
    refine (Int.even_coe_nat whole).mpr (nearest.even ?_)
    rcases (abs_eq (by norm_num)).mp middle with above | below
    · exact .inr (by linarith)
    · exact .inl (by linarith)

/-! ### Digits -/

@[simp] theorem length_lastDigits (number count : ℕ) :
    (lastDigits number count).length = count := by
  induction count generalizing number with
  | zero => rfl
  | succ count inductionHypothesis => simp [lastDigits, inductionHypothesis]

theorem lt_of_mem_lastDigits {number count digit : ℕ} (member : digit ∈ lastDigits number count) :
    digit < 10 := by
  induction count generalizing number with
  | zero => cases member
  | succ count inductionHypothesis =>
    rcases List.mem_append.mp member with higher | last
    · exact inductionHypothesis higher
    · rw [List.mem_singleton.mp last]
      exact Nat.mod_lt number (by decide)

theorem asciiDigit_spec (value : Fin 10) :
    (Text.asciiDigit value).isDigit = true ∧
      (Text.asciiDigit value).toNat - '0'.toNat = value ∧
      (Text.asciiDigit value = '0' → value = 0) := by
  revert value
  decide

/-- The last digits of a number say what is left of it. -/
theorem ofDigitChars_lastDigits (number count sofar : ℕ) :
    Nat.ofDigitChars 10 ((lastDigits number count).map Text.asciiDigit) sofar =
      sofar * 10 ^ count + number % 10 ^ count := by
  induction count generalizing number with
  | zero => simp [lastDigits, Nat.mod_one]
  | succ count inductionHypothesis =>
    have last := (asciiDigit_spec ⟨number % 10, Nat.mod_lt number (by decide)⟩).2.1
    rw [lastDigits, List.map_append, Nat.ofDigitChars_append, inductionHypothesis,
      List.map_singleton, Nat.ofDigitChars_cons, Nat.ofDigitChars_nil, last, pow_succ', Nat.mod_mul]
    ring

theorem getLast?_dropTrailing {α : Type} [BEq α] [LawfulBEq α] (last : α) (list : List α) :
    (dropTrailing last list).getLast? ≠ some last := by
  intro ends
  obtain ⟨nonempty, equal⟩ := List.mem_getLast?_eq_getLast ends
  exact List.rdropWhile_last_not _ list nonempty (beq_iff_eq.mpr equal.symm)

/-- All copies of a value after another one are dropped. -/
theorem dropTrailing_append_replicate {α : Type} [BEq α] [LawfulBEq α] {last : α} {list : List α}
    (ends : list.getLast? ≠ some last) (count : ℕ) :
    dropTrailing last (list ++ List.replicate count last) = list := by
  induction count with
  | zero =>
    rw [List.replicate_zero, List.append_nil]
    refine List.rdropWhile_eq_self_iff.mpr fun nonempty equal => ends ?_
    rw [List.getLast?_eq_some_getLast nonempty, eq_of_beq equal]
  | succ count inductionHypothesis =>
    rw [List.replicate_succ', ← List.append_assoc]
    exact (List.rdropWhile_concat_pos (· == last) _ _ (beq_self_eq_true last)).trans
      inductionHypothesis

/-! ### Plain numerals -/

/-- A magnitude with a sign. -/
def signed (negative : Bool) (magnitude : ℚ) : ℚ :=
  if negative then -magnitude else magnitude

/-- A finite number, exactly. -/
def Binary.value (exact : Binary) : ℚ :=
  signed exact.negative exact.magnitude

/-- A decimal numeral without an exponent. It has a digit before the point, a point only before
further digits, no zero at the end of these, and a minus only before a number that is not zero. -/
structure PlainDecimal where
  negative : Bool
  whole : List Char
  fraction : List Char
  whole_ne_nil : whole ≠ []
  isDigit_whole : ∀ digit ∈ whole, digit.isDigit = true
  isDigit_fraction : ∀ digit ∈ fraction, digit.isDigit = true
  getLast?_fraction : fraction.getLast? ≠ some '0'
  nonzero : negative = true → digitsValue 0 (whole ++ fraction) ≠ 0

namespace PlainDecimal

def text (numeral : PlainDecimal) : String :=
  String.ofList (signText numeral.negative ++ numeral.whole ++
    if numeral.fraction.isEmpty then [] else '.' :: numeral.fraction)

/-- What a numeral says. -/
def value (numeral : PlainDecimal) : ℚ :=
  signed numeral.negative
    (digitsValue 0 (numeral.whole ++ numeral.fraction) / 10 ^ numeral.fraction.length)

/-- No numeral is a negative zero. -/
theorem text_ne (numeral : PlainDecimal) : numeral.text ≠ "-0" := by
  intro same
  obtain ⟨negative, whole, fraction, nonempty, isDigit, _, _, nonzero⟩ := numeral
  obtain ⟨first, rest, rfl⟩ := List.exists_cons_of_ne_nil nonempty
  have characters := congrArg String.toList same
  rw [text, String.toList_ofList] at characters
  cases negative with
  | false =>
    have minus : first = '-' := (List.cons.inj characters).1
    have digit := isDigit first List.mem_cons_self
    rw [minus] at digit
    cases digit
  | true =>
    obtain ⟨zero, ends⟩ := List.cons.inj (List.cons.inj characters).2
    obtain ⟨noMore, noPoint⟩ := List.append_eq_nil_iff.mp ends
    cases fraction with
    | nil =>
      have zero : first = '0' := zero
      have noMore : rest = [] := noMore
      exact nonzero rfl (by rw [zero, noMore]; rfl)
    | cons digit others => cases noPoint

end PlainDecimal

/-! ### What is written -/

/-- The digits that are written, and the zeros that are not, say how many units there are. -/
theorem exists_digits (units places : ℕ) : ∃ zeros,
    (dropTrailing 0 (lastDigits units places)).length + zeros = places ∧
      units = 10 ^ zeros * digitsValue 0 (Nat.toDigits 10 (units / tenTo places) ++
        (dropTrailing 0 (lastDigits units places)).map Text.asciiDigit) := by
  obtain ⟨zeros, split⟩ := exists_dropTrailing 0 (lastDigits units places)
  refine ⟨zeros, ?_, ?_⟩
  · have lengths := congrArg List.length split
    simpa using lengths.symm
  · have all := ofDigitChars_lastDigits units places (units / tenTo places)
    have zero : Text.asciiDigit 0 = '0' := rfl
    rw [split, List.map_append, List.map_replicate, zero, Nat.ofDigitChars_append,
      Nat.ofDigitChars_replicate_zero] at all
    have digits : ∀ text, digitsValue 0 text = Nat.ofDigitChars 10 text 0 := fun _ => rfl
    rw [digits, Nat.ofDigitChars_append, Nat.ofDigitChars_ten_toDigits, all]
    exact (Nat.div_add_mod' units (tenTo places)).symm

theorem lt_of_mem_fraction {units places digit : ℕ}
    (member : digit ∈ dropTrailing 0 (lastDigits units places)) : digit < 10 := by
  obtain ⟨zeros, split⟩ := exists_dropTrailing 0 (lastDigits units places)
  refine @lt_of_mem_lastDigits units places digit ?_
  rw [split]
  exact List.mem_append_left _ member

/-- The numeral that a count of units is written as. -/
def PlainDecimal.ofUnits (negative : Bool) (units places : ℕ) : PlainDecimal where
  negative := negative && units != 0
  whole := Nat.toDigits 10 (units / tenTo places)
  fraction := (dropTrailing 0 (lastDigits units places)).map Text.asciiDigit
  whole_ne_nil := List.ne_nil_of_length_pos Nat.length_toDigits_pos
  isDigit_whole _ member := Nat.isDigit_of_mem_toDigits (by decide) (by decide) member
  isDigit_fraction := by
    intro character member
    obtain ⟨digit, inDigits, rfl⟩ := List.mem_map.mp member
    exact (asciiDigit_spec ⟨digit, lt_of_mem_fraction inDigits⟩).1
  getLast?_fraction := by
    intro last
    rw [List.getLast?_map, Option.map_eq_some_iff] at last
    obtain ⟨digit, atEnd, zero⟩ := last
    have small := lt_of_mem_fraction (List.mem_of_getLast? atEnd)
    have none := congrArg Fin.val ((asciiDigit_spec ⟨digit, small⟩).2.2 zero)
    exact getLast?_dropTrailing _ _ (atEnd.trans (congrArg some none))
  nonzero minus zero := by
    obtain ⟨zeros, -, split⟩ := exists_digits units places
    rw [zero, Nat.mul_zero] at split
    rw [split] at minus
    simp at minus

/-- Zeros after a fraction are dropped, and the point with them if there is no fraction. -/
theorem withoutZeros_append {front fraction : List Char} (zeros : ℕ)
    (whole : ∀ character ∈ front, character ≠ '.')
    (isDigit : ∀ digit ∈ fraction, digit.isDigit = true) (last : fraction.getLast? ≠ some '0') :
    withoutZeros (front ++ '.' :: (fraction ++ List.replicate zeros '0')) =
      front ++ if fraction.isEmpty then [] else '.' :: fraction := by
  have pointed : (front ++ '.' :: (fraction ++ List.replicate zeros '0')).contains '.' = true :=
    List.contains_iff_mem.mpr (List.mem_append_right _ List.mem_cons_self)
  rw [withoutZeros, if_pos pointed, ← List.cons_append, ← List.append_assoc]
  cases fraction with
  | nil =>
    rw [dropTrailing_append_replicate (by simp)]
    refine (dropTrailing_append_replicate ?_ 1).trans (List.append_nil front).symm
    exact fun ends => whole '.' (List.mem_of_getLast? ends) rfl
  | cons digit others =>
    have same (character : Char) : (front ++ '.' :: digit :: others).getLast? = some character ↔
        (digit :: others).getLast? = some character := by
      simp
    rw [dropTrailing_append_replicate (mt (same '0').mp last)]
    have ends : (front ++ '.' :: digit :: others).getLast? ≠ some '.' := by
      intro point
      cases isDigit '.' (List.mem_of_getLast? ((same '.').mp point))
    rw [List.isEmpty_cons, if_neg Bool.false_ne_true]
    simpa using dropTrailing_append_replicate ends 0

/-- The digits of a text with all places, without the zeros that end it. -/
theorem withoutZeros_placedText (negative : Bool) (units places : ℕ) :
    let numeral := PlainDecimal.ofUnits negative units places
    withoutZeros (placedText negative units places) = signText negative ++ numeral.whole ++
      if numeral.fraction.isEmpty then [] else '.' :: numeral.fraction := by
  intro numeral
  have front : ∀ character ∈ signText negative ++ numeral.whole, character ≠ '.' := by
    rintro _ member rfl
    rcases List.mem_append.mp member with sign | digit
    · cases negative <;> simp [signText] at sign
    · cases numeral.isDigit_whole '.' digit
  rw [placedText]
  rcases Nat.eq_zero_or_pos places with rfl | some
  · have bare : ¬ (signText negative ++ numeral.whole).contains '.' = true :=
      fun point => front '.' (List.contains_iff_mem.mp point) rfl
    rw [if_pos rfl, withoutZeros, List.append_nil]
    exact (if_neg bare).trans (List.append_nil _).symm
  · obtain ⟨zeros, split⟩ := exists_dropTrailing 0 (lastDigits units places)
    have digits : (lastDigits units places).map Text.asciiDigit =
        numeral.fraction ++ List.replicate zeros '0' := by
      rw [split, List.map_append, List.map_replicate]
      rfl
    rw [if_neg some.ne', digits]
    exact withoutZeros_append zeros front numeral.isDigit_fraction numeral.getLast?_fraction

theorem lastDigits_zero (count : ℕ) : lastDigits 0 count = List.replicate count 0 := by
  induction count with
  | zero => rfl
  | succ count inductionHypothesis =>
    rw [lastDigits, Nat.zero_div, Nat.zero_mod, inductionHypothesis, List.replicate_succ']

/-- No units are written as one zero. -/
theorem ofUnits_zero (negative : Bool) (places : ℕ) :
    (PlainDecimal.ofUnits negative 0 places).whole = ['0'] ∧
      (PlainDecimal.ofUnits negative 0 places).fraction = [] := by
  have digits : dropTrailing 0 (List.replicate places 0) = [] :=
    @dropTrailing_append_replicate ℕ _ _ 0 [] (by simp) places
  dsimp only [PlainDecimal.ofUnits]
  rw [Nat.zero_div, lastDigits_zero, digits]
  exact ⟨rfl, rfl⟩

/-- The steps of writing lead to the numeral: they keep the digits that say something, and a sign
unless these are the digits of zero. -/
theorem fixedText_eq_text (negative : Bool) (units places : ℕ) :
    fixedText negative units places = (PlainDecimal.ofUnits negative units places).text := by
  have kept := withoutZeros_placedText negative units places
  rw [fixedText, shorten]
  by_cases zero : negative = true ∧ units = 0
  · obtain ⟨rfl, rfl⟩ := zero
    obtain ⟨whole, fraction⟩ := ofUnits_zero true places
    dsimp only at kept
    rw [whole, fraction] at kept
    rw [kept, PlainDecimal.text, whole, fraction]
    rfl
  · have sign : (PlainDecimal.ofUnits negative units places).negative = negative := by
      cases negative with
      | false => rfl
      | true => exact bne_iff_ne.mpr fun none => zero ⟨rfl, none⟩
    have text : String.ofList (withoutZeros (placedText negative units places)) =
        (PlainDecimal.ofUnits negative units places).text := by
      rw [kept, PlainDecimal.text, sign]
    have signed : ¬ withoutZeros (placedText negative units places) = ['-', '0'] := by
      intro same
      rw [same] at text
      exact PlainDecimal.text_ne _ text.symm
    rw [if_neg signed, text]

/-- The numeral says how many units there are. -/
theorem value_ofUnits (negative : Bool) (units places : ℕ) :
    (PlainDecimal.ofUnits negative units places).value =
      signed negative (units * (1 / 10 ^ places)) := by
  obtain ⟨zeros, length, split⟩ := exists_digits units places
  rw [PlainDecimal.value]
  dsimp only [PlainDecimal.ofUnits]
  rw [List.length_map]
  generalize digitsValue 0 _ = digits at split ⊢
  generalize List.length _ = written at length ⊢
  have ten : (10 : ℚ) ^ zeros ≠ 0 := by positivity
  have quotient : (digits : ℚ) / 10 ^ written = units * (1 / 10 ^ places) := by
    rw [split, ← length, Nat.cast_mul, Nat.cast_pow, Nat.cast_ofNat, pow_add]
    field_simp
  rw [quotient]
  rcases Nat.eq_zero_or_pos units with rfl | some
  · simp [signed]
  · rw [bne_iff_ne.mpr some.ne', Bool.and_true]

/-- Of two numbers with opposite signs the same multiple is nearest, up to the sign. -/
theorem exists_nearestMultiple {unit : ℚ} (negative : Bool)
    (nearest : NearestMultiple unit exact whole) :
    ∃ count : ℤ, signed negative (whole * unit) = count * unit ∧
      NearestMultiple unit (signed negative exact) count := by
  cases negative with
  | false => exact ⟨whole, by simp [signed], nearest⟩
  | true => exact ⟨-whole, by simp [signed], nearest.neg⟩

/-- A finite number is written as a plain numeral, which says the nearest multiple of the last place
and has no more places than asked for. Rounding first and writing then is rounding once. -/
theorem exists_formatFixed {number : Float} (places : ℕ) (finite : number.isFinite = true) :
    ∃ (exact : Binary) (count : ℤ) (numeral : PlainDecimal),
      classify number = .finite exact ∧ formatFixed number places = numeral.text ∧
        NearestMultiple (1 / 10 ^ places) exact.value count ∧
        numeral.value = count * (1 / 10 ^ places) ∧
        numeral.fraction.length ≤ places ∧ numeral.text ≠ "-0" ∧
        formatFixed number places =
          fixedText exact.negative (exact.decimalUnits places) places := by
  obtain ⟨exact, classified⟩ := exists_classify_eq_finite finite
  have once : formatFixed number places =
      fixedText exact.negative (exact.decimalUnits places) places := by
    rw [formatFixed, placedNumber, classified]
    dsimp only
    rw [Binary.decimalUnits_roundedTo (fits_of_classify classified), fixedText]
  have nearest : Nearest (exact.magnitude / (1 / 10 ^ places)) (exact.decimalUnits places) := by
    rw [div_div_eq_mul_div, div_one]
    exact exact.nearest_decimalUnits places
  obtain ⟨count, value, multiple⟩ := exists_nearestMultiple exact.negative
    (nearestMultiple_of_nearest (by positivity) nearest)
  obtain ⟨zeros, length, -⟩ := exists_digits (exact.decimalUnits places) places
  refine ⟨exact, count, .ofUnits exact.negative (exact.decimalUnits places) places, classified,
    once.trans (fixedText_eq_text _ _ _), multiple, (value_ofUnits _ _ _).trans value, ?_,
    PlainDecimal.text_ne _, once⟩
  rw [PlainDecimal.ofUnits, List.length_map]
  omega

/-- An eighth lies in the middle of two hundredths, and the even one is written. -/
theorem exists_formatFixed_of_eighth :
    (0.125 : Float).isFinite = true ∧ formatFixed 0.125 2 = "0.12" ∧
      ∃ (exact : Binary) (count : ℤ) (numeral : PlainDecimal),
        classify 0.125 = .finite exact ∧ formatFixed 0.125 2 = numeral.text ∧
          NearestMultiple (1 / 10 ^ 2) exact.value count ∧
          numeral.value = count * (1 / 10 ^ 2) ∧
          numeral.fraction.length ≤ 2 ∧ numeral.text ≠ "-0" ∧
          formatFixed 0.125 2 = fixedText exact.negative (exact.decimalUnits 2) 2 :=
  ⟨by decide +kernel, by decide +kernel, exists_formatFixed 2 (by decide +kernel)⟩

/-- A number that is rounded to zero keeps no sign. -/
example : formatFixed (-0.004) 2 = "0" := by decide +kernel

end UnitSheet.Decimal
