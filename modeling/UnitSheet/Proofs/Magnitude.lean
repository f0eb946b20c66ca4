/-
This file says that the algebra of units keeps what is measured when nothing is rounded.

Over the rational numbers sums, products, quotients and whole powers are exact. What a quantity is
worth in the bases of its families is its value times the scale of its unit, the product of the
powers of the factors (`Quantity.magnitude`). Bringing a value from one power of a unit to that of
another multiplies it by the one scale and divides it by the other (`NamedUnit.convert_eq`),
whatever the sign of the exponent. Merging does this for every family that both operands have, and
conversion for every pair of powers, so the scales that are left make up for it.
-/

import Mathlib
import UnitSheet.Proofs.Scales

namespace UnitSheet

/-- Exact arithmetic. Powers with fractional exponents need not be rational and are refused. -/
instance : Scalar ℚ where
  zero := 0
  one := 1
  isNegative number := decide (number < 0)
  divide dividend divisor := if divisor = 0 then .error .zeroScale else .ok (dividend / divisor)
  power base exponent :=
    if exponent.den ≠ 1 then .error .outsideDomain
    else if base = 0 ∧ exponent < 0 then .error .zeroToNegativePower
    else .ok (base ^ exponent.num)

/-! ### Scales -/

namespace UnitPower

/-- A whole power of a unit with a factor that can be divided by. -/
structure Regular (power : UnitPower ℚ) : Prop where
  whole : power.exponent.den = 1
  nonzero : power.unit.factor ≠ 0

/-- A whole power of a unit that is a multiple of the base of its family. -/
structure Linear (power : UnitPower ℚ) : Prop extends Regular power where
  unshifted : power.unit.shift = 0

/-- A whole power of a unit that is a positive multiple of the base of its family. -/
structure Plain (power : UnitPower ℚ) : Prop where
  whole : power.exponent.den = 1
  positive : 0 < power.unit.factor
  unshifted : power.unit.shift = 0

/-- What a power is worth in the base of its family. -/
def scale (power : UnitPower ℚ) : ℚ :=
  power.unit.factor ^ power.exponent.num

variable {power : UnitPower ℚ}

theorem Regular.scale_ne_zero (regular : power.Regular) : power.scale ≠ 0 :=
  zpow_ne_zero _ regular.nonzero

theorem Plain.linear (plain : power.Plain) : power.Linear :=
  ⟨⟨plain.whole, plain.positive.ne'⟩, plain.unshifted⟩

end UnitPower

namespace CompoundUnit

/-- What a product of powers is worth in the bases of their families. -/
def scale (powers : List (UnitPower ℚ)) : ℚ :=
  (powers.map UnitPower.scale).prod

/-- All powers are whole and of units without shifts. -/
def Plain (powers : List (UnitPower ℚ)) : Prop :=
  ∀ power ∈ powers, power.Plain

theorem Plain.linear {powers : List (UnitPower ℚ)} (plain : Plain powers) :
    ∀ power ∈ powers, power.Linear :=
  fun power member => (plain power member).linear

/-- Units with one id on both sides are the same unit. -/
def Consistent (first second : List (UnitPower ℚ)) : Prop :=
  ∀ left ∈ first, ∀ right ∈ second, left.unit.id = right.unit.id → left.unit = right.unit

variable {first second : List (UnitPower ℚ)}

@[simp] theorem scale_nil : scale [] = 1 :=
  rfl

@[simp] theorem scale_cons (power : UnitPower ℚ) (powers : List (UnitPower ℚ)) :
    scale (power :: powers) = power.scale * scale powers :=
  List.prod_cons

theorem scale_perm (perm : first.Perm second) : scale first = scale second :=
  (perm.map UnitPower.scale).prod_eq

theorem plain_cons {power : UnitPower ℚ} :
    Plain (power :: first) ↔ power.Plain ∧ Plain first :=
  List.forall_mem_cons

theorem Plain.perm (plain : Plain first) (perm : first.Perm second) : Plain second :=
  fun power member => plain power (perm.mem_iff.mpr member)

theorem Consistent.mono {lefts rights : List (UnitPower ℚ)} (consistent : Consistent first second)
    (left : lefts ⊆ first) (right : rights ⊆ second) : Consistent lefts rights :=
  fun known inLefts other inRights => consistent known (left inLefts) other (right inRights)

end CompoundUnit

/-! ### Conversion -/

theorem scalar_power_eq {base exponent : ℚ} (nonzero : base ≠ 0) (whole : exponent.den = 1) :
    Scalar.power base exponent = .ok (base ^ exponent.num) := by
  show (if _ then _ else _) = _
  rw [if_neg (not_not_intro whole), if_neg fun zero => nonzero zero.1]

theorem scalar_divide_eq {divisor : ℚ} (nonzero : divisor ≠ 0) (dividend : ℚ) :
    Scalar.divide dividend divisor = .ok (dividend / divisor) :=
  if_neg nonzero

namespace NamedUnit

/-- A value in a power of one unit is shifted, multiplied by its scale, divided by that of the other
and shifted back. A unit and itself agree with this, although they need no arithmetic. -/
theorem convert_eq_shifted {source target : UnitPower ℚ} (value : ℚ) (left : source.Regular)
    (right : target.Regular) (family : source.unit.sameFamily target.unit = true)
    (consistent : source.unit.id = target.unit.id → source.unit = target.unit) :
    convert value source.unit target.unit source.exponent =
      .ok ((value + source.unit.shift) * source.scale / target.unit.factor ^ source.exponent.num -
        target.unit.shift) := by
  have nonzero := zpow_ne_zero source.exponent.num right.nonzero
  rw [convert, if_pos family, mapError_eq_ok, rescale]
  split
  · rename_i same
    rw [← consistent same, show source.unit.factor ^ source.exponent.num = source.scale from rfl,
      mul_div_cancel_right₀ _ left.scale_ne_zero, add_sub_cancel_right]
  · refine bind_eq_ok.mpr ⟨_, scalar_power_eq left.nonzero left.whole, ?_⟩
    refine bind_eq_ok.mpr ⟨_, scalar_power_eq right.nonzero left.whole, ?_⟩
    exact bind_eq_ok.mpr ⟨_, scalar_divide_eq nonzero _, rfl⟩

/-- Without shifts the value is multiplied by the one scale and divided by the other. -/
theorem convert_eq {source target : UnitPower ℚ} (value : ℚ) (left : source.Linear)
    (right : target.Linear) (family : source.unit.sameFamily target.unit = true)
    (consistent : source.unit.id = target.unit.id → source.unit = target.unit) :
    convert value source.unit target.unit source.exponent =
      .ok (value * source.scale / target.unit.factor ^ source.exponent.num) := by
  rw [convert_eq_shifted value left.toRegular right.toRegular family consistent, left.unshifted,
    right.unshifted, add_zero, sub_zero]

end NamedUnit

/-! ### Products -/

theorem exists_intCast {number : ℚ} (whole : number.den = 1) : ∃ integer : ℤ, number = integer :=
  ⟨number.num, ((Rat.den_eq_one_iff number).mp whole).symm⟩

/-- Exponents are added. -/
theorem zpow_add_of_whole {base first second : ℚ} (positive : 0 < base) (left : first.den = 1)
    (right : second.den = 1) :
    base ^ (first + second).num = base ^ first.num * base ^ second.num := by
  obtain ⟨first, rfl⟩ := exists_intCast left
  obtain ⟨second, rfl⟩ := exists_intCast right
  rw [← Int.cast_add, Rat.num_intCast, Rat.num_intCast, Rat.num_intCast, zpow_add₀ positive.ne']

theorem den_mul_of_whole {first second : ℚ} (left : first.den = 1) (right : second.den = 1) :
    (first * second).den = 1 := by
  obtain ⟨first, rfl⟩ := exists_intCast left
  obtain ⟨second, rfl⟩ := exists_intCast right
  rw [← Int.cast_mul]
  exact Rat.den_intCast _

/-- Exponents are multiplied. -/
theorem zpow_mul_of_whole (base : ℚ) {first second : ℚ} (left : first.den = 1)
    (right : second.den = 1) : base ^ (first * second).num = (base ^ first.num) ^ second.num := by
  obtain ⟨first, rfl⟩ := exists_intCast left
  obtain ⟨second, rfl⟩ := exists_intCast right
  rw [← Int.cast_mul, Rat.num_intCast, Rat.num_intCast, Rat.num_intCast, zpow_mul]

namespace CompoundUnit

/-- A power whose exponent is zero is worth one, so it can be left out. -/
theorem scale_unless_zero (unit : NamedUnit ℚ) (exponent : ℚ) (rest : List (UnitPower ℚ)) :
    scale (if exponent == Scalar.zero then rest else ⟨unit, exponent⟩ :: rest) =
      unit.factor ^ exponent.num * scale rest := by
  split
  · rename_i zero
    have zero : exponent = 0 := eq_of_beq zero
    rw [zero, Rat.num_zero, zpow_zero, one_mul]
  · exact scale_cons _ rest

/-- Merging keeps the product of the value and both scales. -/
theorem exists_mergePowers {first second : List (UnitPower ℚ)} (value : ℚ) (left : Plain first)
    (right : Plain second) (consistent : Consistent first second) :
    ∃ merged, mergePowers value first second = .ok merged ∧
      merged.1 * scale merged.2 = value * (scale first * scale second) := by
  induction value, first, second using mergePowers.induct with
  | case1 value second =>
    exact ⟨(value, second), by rw [mergePowers], by rw [scale_nil, one_mul]⟩
  | case2 value first nonempty =>
    refine ⟨(value, first), ?_, by rw [scale_nil, mul_one]⟩
    rw [mergePowers]
    exact nonempty
  | case3 value head lefts other rights same inductionHypothesis =>
    obtain ⟨atHead, inLefts⟩ := plain_cons.mp left
    obtain ⟨atOther, inRights⟩ := plain_cons.mp right
    have family : other.unit.sameFamily head.unit = true := beq_iff_eq.mpr (eq_of_beq same).symm
    have converted := NamedUnit.convert_eq value atOther.linear atHead.linear family fun equal =>
      (consistent head List.mem_cons_self other List.mem_cons_self equal.symm).symm
    obtain ⟨⟨product, rest⟩, merged, kept⟩ := inductionHypothesis _ inLefts inRights
      (consistent.mono (List.subset_cons_self _ _) (List.subset_cons_self _ _))
    refine ⟨(product, if head.exponent + other.exponent == Scalar.zero then rest
      else ⟨head.unit, head.exponent + other.exponent⟩ :: rest), ?_, ?_⟩
    · rw [mergePowers, if_pos same]
      exact bind_eq_ok.mpr ⟨_, converted, bind_eq_ok.mpr ⟨_, merged, rfl⟩⟩
    · have nonzero := zpow_ne_zero other.exponent.num atHead.positive.ne'
      have moved : product * scale rest * head.unit.factor ^ other.exponent.num =
          value * other.scale * (scale lefts * scale rights) := by
        rw [show product * scale rest = _ from kept, div_mul_eq_mul_div, div_mul_cancel₀ _ nonzero]
      have sum : head.unit.factor ^ (head.exponent + other.exponent).num =
          head.scale * head.unit.factor ^ other.exponent.num :=
        zpow_add_of_whole atHead.positive atHead.whole atOther.whole
      simp only [scale_unless_zero, scale_cons, sum]
      linear_combination head.scale * moved
  | case4 value head lefts other rights differs before inductionHypothesis =>
    obtain ⟨⟨product, rest⟩, merged, kept⟩ := inductionHypothesis (plain_cons.mp left).2 right
      (consistent.mono (List.subset_cons_self _ _) (List.Subset.refl _))
    refine ⟨(product, head :: rest), ?_, ?_⟩
    · rw [mergePowers, if_neg differs, if_pos before]
      exact bind_eq_ok.mpr ⟨_, merged, rfl⟩
    · simp only [scale_cons] at kept ⊢
      linear_combination head.scale * kept
  | case5 value head lefts other rights differs notBefore inductionHypothesis =>
    obtain ⟨⟨product, rest⟩, merged, kept⟩ := inductionHypothesis left (plain_cons.mp right).2
      (consistent.mono (List.Subset.refl _) (List.subset_cons_self _ _))
    refine ⟨(product, other :: rest), ?_, ?_⟩
    · rw [mergePowers, if_neg differs, if_neg notBefore]
      exact bind_eq_ok.mpr ⟨_, merged, rfl⟩
    · simp only [scale_cons] at kept ⊢
      linear_combination other.scale * kept

/-! ### Powers -/

theorem power_cons (power : UnitPower ℚ) (powers : List (UnitPower ℚ)) (exponent : ℚ) :
    (CompoundUnit.power ⟨power :: powers⟩ exponent).powers =
      if power.exponent * exponent == Scalar.zero then (CompoundUnit.power ⟨powers⟩ exponent).powers
      else ⟨power.unit, power.exponent * exponent⟩ ::
        (CompoundUnit.power ⟨powers⟩ exponent).powers := by
  split
  · rename_i zero
    simp only [CompoundUnit.power, List.filterMap_cons, if_pos zero]
  · rename_i nonzero
    simp only [CompoundUnit.power, List.filterMap_cons, if_neg nonzero]

/-- A power of a unit is worth that power of what the unit is worth. -/
theorem scale_power {unit : CompoundUnit ℚ} (plain : Plain unit.powers) {exponent : ℚ}
    (whole : exponent.den = 1) :
    scale (unit.power exponent).powers = scale unit.powers ^ exponent.num := by
  obtain ⟨powers⟩ := unit
  induction powers with
  | nil => exact (one_zpow exponent.num).symm
  | cons power powers inductionHypothesis =>
    obtain ⟨atPower, inPowers⟩ := plain_cons.mp plain
    rw [power_cons, scale_unless_zero, inductionHypothesis inPowers, scale_cons, mul_zpow,
      zpow_mul_of_whole _ atPower.whole whole]
    rfl

theorem Plain.power {unit : CompoundUnit ℚ} (plain : Plain unit.powers) {exponent : ℚ}
    (whole : exponent.den = 1) : Plain (unit.power exponent).powers := by
  intro raised member
  obtain ⟨factor, among, rfl, _⟩ := mem_power member
  have known := plain factor among
  exact ⟨den_mul_of_whole known.whole whole, known.positive, known.unshifted⟩

theorem Consistent.power {powers : List (UnitPower ℚ)} {unit : CompoundUnit ℚ}
    (consistent : Consistent powers unit.powers) (exponent : ℚ) :
    Consistent powers (unit.power exponent).powers := by
  intro known inPowers raised member
  obtain ⟨factor, among, rfl, _⟩ := mem_power member
  exact consistent known inPowers factor among

/-! ### Conversion of a whole unit -/

/-- Two powers between which a value is converted. -/
structure Paired (source target : UnitPower ℚ) : Prop where
  agrees : source.agrees target = true
  consistent : source.unit.id = target.unit.id → source.unit = target.unit
  left : source.Linear
  right : target.Linear

theorem Paired.convert_eq {source target : UnitPower ℚ} (paired : Paired source target)
    (value : ℚ) : NamedUnit.convert value source.unit target.unit source.exponent =
      .ok (value * source.scale / target.scale) := by
  obtain ⟨exponent, family⟩ := (Bool.and_eq_true _ _).mp paired.agrees
  rw [NamedUnit.convert_eq value paired.left paired.right family paired.consistent,
    eq_of_beq exponent]
  rfl

/-- Converting power by power keeps the product of the value and the scale. -/
theorem exists_convert_pairs {pairs : List (UnitPower ℚ × UnitPower ℚ)}
    (paired : ∀ pair ∈ pairs, Paired pair.1 pair.2) (value : ℚ) :
    ∃ converted, pairs.foldlM (fun current (left, right) =>
        left.unit.convert current right.unit left.exponent) value = .ok converted ∧
      converted * scale (pairs.map Prod.snd) = value * scale (pairs.map Prod.fst) := by
  induction pairs generalizing value with
  | nil => exact ⟨value, rfl, rfl⟩
  | cons pair rest inductionHypothesis =>
    obtain ⟨source, target⟩ := pair
    obtain ⟨atPair, inRest⟩ := List.forall_mem_cons.mp paired
    obtain ⟨converted, folded, kept⟩ :=
      inductionHypothesis inRest (value * source.scale / target.scale)
    refine ⟨converted, ?_, ?_⟩
    · rw [List.foldlM_cons]
      exact bind_eq_ok.mpr ⟨_, atPair.convert_eq value, folded⟩
    · have moved : converted * scale (rest.map Prod.snd) * target.scale =
          value * source.scale * scale (rest.map Prod.fst) := by
        rw [kept, div_mul_eq_mul_div, div_mul_cancel₀ _ atPair.right.scale_ne_zero]
      simp only [List.map_cons, scale_cons]
      linear_combination moved

theorem exists_convert {source target : CompoundUnit ℚ}
    (left : ∀ power ∈ source.powers, power.Linear) (right : ∀ power ∈ target.powers, power.Linear)
    (consistent : Consistent source.powers target.powers)
    (compatible : source.isCompatible target = true) (value : ℚ) :
    ∃ converted, convert value source target = .ok converted ∧
      converted * scale target.powers = value * scale source.powers := by
  obtain ⟨length, agrees⟩ := (Bool.and_eq_true _ _).mp compatible
  have ofSource := List.mergeSort_perm source.powers UnitPower.writtenBefore
  have ofTarget := List.mergeSort_perm target.powers UnitPower.writtenBefore
  have alike : source.canonical.powers.length = target.canonical.powers.length :=
    ofSource.length_eq.trans ((eq_of_beq length).trans ofTarget.length_eq.symm)
  have paired : ∀ pair ∈ source.aligned target, Paired pair.1 pair.2 := by
    rintro ⟨first, second⟩ member
    obtain ⟨inSource, inTarget⟩ := List.of_mem_zip member
    have inSource := ofSource.mem_iff.mp inSource
    have inTarget := ofTarget.mem_iff.mp inTarget
    exact ⟨List.all_eq_true.mp agrees _ member, consistent first inSource second inTarget,
      left first inSource, right second inTarget⟩
  obtain ⟨converted, folded, kept⟩ := exists_convert_pairs paired value
  refine ⟨converted, ?_, ?_⟩
  · rw [convert, if_pos compatible, folded]
  · rw [aligned, List.map_snd_zip alike.ge, List.map_fst_zip alike.le] at kept
    rw [← scale_perm ofSource, ← scale_perm ofTarget]
    exact kept

end CompoundUnit

/-! ### Quantities -/

namespace Quantity

/-- What a quantity is worth in the bases of the families of its unit. -/
def magnitude (quantity : Quantity ℚ) : ℚ :=
  quantity.value * CompoundUnit.scale quantity.unit.powers

variable {first second : Quantity ℚ}

/-- A product is worth the product. -/
theorem exists_multiply (left : CompoundUnit.Plain first.unit.powers)
    (right : CompoundUnit.Plain second.unit.powers)
    (consistent : CompoundUnit.Consistent first.unit.powers second.unit.powers) :
    ∃ product, first.multiply second = .ok product ∧
      product.magnitude = first.magnitude * second.magnitude := by
  have ofFirst : first.unit.byFamily.Perm first.unit.powers := List.mergeSort_perm _ _
  have ofSecond : second.unit.byFamily.Perm second.unit.powers := List.mergeSort_perm _ _
  obtain ⟨⟨value, powers⟩, merged, kept⟩ := CompoundUnit.exists_mergePowers
    (first.value * second.value) (left.perm ofFirst.symm) (right.perm ofSecond.symm)
    (consistent.mono ofFirst.subset ofSecond.subset)
  refine ⟨_, bind_eq_ok.mpr ⟨_, merged, rfl⟩, ?_⟩
  have canonical : (CompoundUnit.canonical ⟨powers⟩).powers.Perm powers :=
    List.mergeSort_perm _ _
  calc value * CompoundUnit.scale (CompoundUnit.canonical ⟨powers⟩).powers
      = value * CompoundUnit.scale powers := by rw [CompoundUnit.scale_perm canonical]
    _ = first.value * second.value * (CompoundUnit.scale first.unit.byFamily *
          CompoundUnit.scale second.unit.byFamily) := kept
    _ = first.magnitude * second.magnitude := by
      rw [CompoundUnit.scale_perm ofFirst, CompoundUnit.scale_perm ofSecond, mul_mul_mul_comm]
      rfl

/-- A quotient is worth the quotient. -/
theorem exists_divide (left : CompoundUnit.Plain first.unit.powers)
    (right : CompoundUnit.Plain second.unit.powers)
    (consistent : CompoundUnit.Consistent first.unit.powers second.unit.powers)
    (nonzero : second.value ≠ 0) :
    ∃ quotient, first.divide second = .ok quotient ∧
      quotient.magnitude = first.magnitude / second.magnitude := by
  have whole : (-1 : ℚ).den = 1 := rfl
  have compared : ¬ (second.value == Scalar.zero) = true := fun zero => nonzero (eq_of_beq zero)
  obtain ⟨quotient, multiplied, worth⟩ :
      ∃ quotient, first.multiply ⟨1 / second.value, second.unit.power (-1)⟩ = .ok quotient ∧
        quotient.magnitude =
          first.magnitude * magnitude ⟨1 / second.value, second.unit.power (-1)⟩ :=
    exists_multiply left (right.power whole) (consistent.power (-1))
  refine ⟨quotient, ?_, ?_⟩
  · rw [divide, if_neg compared]
    refine bind_eq_ok.mpr ⟨1 / second.value, ?_, multiplied⟩
    exact mapError_eq_ok.mpr (scalar_divide_eq nonzero 1)
  · have inverse : CompoundUnit.scale (second.unit.power (-1)).powers =
        (CompoundUnit.scale second.unit.powers)⁻¹ :=
      (CompoundUnit.scale_power right whole).trans (zpow_neg_one _)
    rw [worth, magnitude, magnitude, magnitude, inverse, one_div, ← mul_inv, div_eq_mul_inv]

/-- Products, quotients and conversions exist and keep what is measured: in exact arithmetic, for
whole powers of units that are positive multiples of the bases of their families, where an id
belongs to one unit only. -/
theorem magnitude_kept (left : CompoundUnit.Plain first.unit.powers)
    (right : CompoundUnit.Plain second.unit.powers)
    (consistent : CompoundUnit.Consistent first.unit.powers second.unit.powers) :
    (∃ product, first.multiply second = .ok product ∧
      product.magnitude = first.magnitude * second.magnitude) ∧
    (second.value ≠ 0 → ∃ quotient, first.divide second = .ok quotient ∧
      quotient.magnitude = first.magnitude / second.magnitude) ∧
    (first.unit.isCompatible second.unit = true → ∃ converted,
      first.unit.convert first.value second.unit = .ok converted ∧
      magnitude ⟨converted, second.unit⟩ = first.magnitude) := by
  refine ⟨exists_multiply left right consistent, exists_divide left right consistent, ?_⟩
  intro compatible
  exact CompoundUnit.exists_convert left.linear right.linear consistent compatible first.value

/-- Two and fifty, the first per metre and the second per centimetre. -/
theorem magnitude_kept_of_inverse_lengths :
    let metre : NamedUnit ℚ := .custom "meter"
    let centimetre : NamedUnit ℚ := ⟨"centimeter", "cm", ["cm"], "meter", 1 / 100, 0⟩
    let first : Quantity ℚ := ⟨2, ⟨[⟨metre, -1⟩]⟩⟩
    let second : Quantity ℚ := ⟨50, ⟨[⟨centimetre, -1⟩]⟩⟩
    (∃ product, first.multiply second = .ok product ∧ product.magnitude = 10000) ∧
    (∃ quotient, first.divide second = .ok quotient ∧ quotient.magnitude = 1 / 2500) ∧
    (∃ converted, first.unit.convert first.value second.unit = .ok converted ∧
      magnitude ⟨converted, second.unit⟩ = 2) := by
  intro metre centimetre first second
  have left : CompoundUnit.Plain first.unit.powers :=
    CompoundUnit.plain_cons.mpr ⟨⟨rfl, zero_lt_one, rfl⟩, nofun⟩
  have right : CompoundUnit.Plain second.unit.powers :=
    CompoundUnit.plain_cons.mpr ⟨⟨rfl, one_div_pos.mpr (by norm_num), rfl⟩, nofun⟩
  have consistent : CompoundUnit.Consistent first.unit.powers second.unit.powers := by
    intro known inFirst other inSecond same
    rw [List.mem_singleton.mp inFirst, List.mem_singleton.mp inSecond] at same
    exact absurd same (by decide)
  have atFirst : first.magnitude = 2 := by decide +kernel
  have atSecond : second.magnitude = 5000 := by decide +kernel
  have compatible : first.unit.isCompatible second.unit = true := by decide +kernel
  obtain ⟨multiplied, divided, converted⟩ := magnitude_kept left right consistent
  rw [atFirst, atSecond] at multiplied divided
  rw [atFirst] at converted
  refine ⟨?_, ?_, converted compatible⟩
  · rwa [show (2 : ℚ) * 5000 = 10000 by norm_num] at multiplied
  · rw [show (2 : ℚ) / 5000 = 1 / 2500 by norm_num] at divided
    exact divided (by norm_num)

end Quantity

end UnitSheet
