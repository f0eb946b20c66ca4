/-
This file says that the order in which the powers of a unit are stored cannot be observed.

Every operation first puts the powers in an order of its own, the written one or that of their
families. Where powers differ in what decides the order, there is only one way to do so: a unit
whose powers stand in another order becomes the same list (`canonical_eq_of_perm`,
`byFamily_eq_of_perm`), and everything after that is the same computation. A refused conversion
still holds the two units as they were stored, but its words have them as they are written.
-/

import UnitSheet.Proofs.Compatibility
import UnitSheet.Proofs.Products

namespace UnitSheet

/-- The arithmetic cause of a failed conversion, unless it is refused for its units. -/
def ConversionError.cause? : ConversionError Float → Option ArithmeticError
  | .arithmetic cause => some cause
  | .differentFamilies _ _ | .incompatible _ _ => none

/-- What a failed conversion lets one know: its arithmetic cause, if there is one, and its words. -/
def ConversionError.report (error : ConversionError Float) : Option ArithmeticError × String :=
  (error.cause?, error.message)

namespace UnitPower

/-- The side of the division bar on which a power is written, and its symbol. -/
def writtenKey (power : UnitPower Float) : Bool × String :=
  (power.isBelow, power.unit.symbol)

/-- Powers that may be written in either order have the same key. -/
theorem writtenKey_eq {first second : UnitPower Float}
    (before : first.writtenBefore second = true) (after : second.writtenBefore first = true) :
    first.writtenKey = second.writtenKey := by
  unfold writtenBefore at before after
  by_cases same : first.isBelow = second.isBelow
  · rw [if_pos same, decide_eq_true_eq] at before
    rw [if_pos same.symm, decide_eq_true_eq] at after
    exact Prod.ext same (String.le_antisymm before after)
  · rw [if_neg same] at before
    rw [if_neg (Ne.symm same)] at after
    exact absurd (after.trans before.symm) same

end UnitPower

namespace CompoundUnit

variable {first second third other : CompoundUnit Float}

/-- No two powers are of one family, and no two would be written at the same place. -/
structure Distinct (unit : CompoundUnit Float) : Prop where
  apart : unit.powers.Pairwise Apart
  written : unit.powers.Pairwise fun earlier later => earlier.writtenKey ≠ later.writtenKey

/-! ### Orders that do not depend on the stored one -/

/-- Powers are written in one order only. -/
theorem canonical_eq_of_perm (reordered : first.powers.Perm second.powers)
    (written : first.powers.Pairwise fun earlier later =>
      earlier.writtenKey ≠ later.writtenKey) : first.canonical = second.canonical := by
  have inFirst := first.canonical_perm
  have sorted : first.canonical.powers.Perm second.canonical.powers :=
    inFirst.trans (reordered.trans second.canonical_perm.symm)
  have keys : (first.powers.map UnitPower.writtenKey).Nodup := List.pairwise_map.mpr written
  refine congrArg CompoundUnit.mk (List.Perm.eq_of_pairwise (fun earlier later left right => ?_)
    (pairwise_writtenBefore first) (pairwise_writtenBefore second) sorted)
  intro before after
  exact List.inj_on_of_nodup_map keys (inFirst.mem_iff.mp left)
    (inFirst.mem_iff.mp (sorted.mem_iff.mpr right)) (UnitPower.writtenKey_eq before after)

/-- Powers are merged in one order only. -/
theorem byFamily_eq_of_perm (reordered : first.powers.Perm second.powers)
    (apart : first.powers.Pairwise Apart) : first.byFamily = second.byFamily := by
  have sorted : first.byFamily.Perm second.byFamily :=
    (List.mergeSort_perm _ _).trans (reordered.trans (List.mergeSort_perm _ _).symm)
  refine List.Perm.eq_of_pairwise (fun earlier later _ _ below above => ?_)
    (ascending_byFamily apart) (ascending_byFamily (apart_of_perm apart reordered)) sorted
  exact absurd above (lt_asymm below)

/-- Raising powers to an exponent does not look at their order. -/
theorem power_perm (reordered : first.powers.Perm second.powers) (exponent : Float) :
    (first.power exponent).powers.Perm (second.power exponent).powers :=
  reordered.filterMap _

/-! ### Operations that begin with such an order -/

theorem text_congr (canonical : first.canonical = second.canonical) : first.text = second.text := by
  rw [text, text, words, words, canonical]

theorem isCompatible_congr {source target : CompoundUnit Float}
    (atSource : first.canonical = source.canonical)
    (atTarget : second.canonical = target.canonical) :
    first.isCompatible second = source.isCompatible target := by
  rw [Bool.eq_iff_iff, isCompatible_iff, isCompatible_iff, atSource, atTarget]

/-- Units with the same written order convert to the same values, and for the same reasons not. -/
theorem convert_congr {source target : CompoundUnit Float}
    (atSource : first.canonical = source.canonical)
    (atTarget : second.canonical = target.canonical) (value : Float) :
    (convert value first second).mapError ConversionError.report =
      (convert value source target).mapError ConversionError.report := by
  have aligned : first.aligned second = source.aligned target := by
    rw [CompoundUnit.aligned, CompoundUnit.aligned, atSource, atTarget]
  rw [convert, convert, isCompatible_congr atSource atTarget, aligned]
  split
  · rfl
  · have words : ConversionError.message (.incompatible first second) =
        ConversionError.message (.incompatible source target) := by
      unfold ConversionError.message
      dsimp only
      rw [text_congr atSource, text_congr atTarget]
    exact congrArg (fun text => Except.error (none, text)) words

end CompoundUnit

namespace Quantity

open CompoundUnit

variable {first second : CompoundUnit Float}

theorem multiply_congr {left right leftAlso rightAlso : Quantity Float}
    (leftValue : left.value = leftAlso.value)
    (leftUnit : left.unit.byFamily = leftAlso.unit.byFamily)
    (rightValue : right.value = rightAlso.value)
    (rightUnit : right.unit.byFamily = rightAlso.unit.byFamily) :
    left.multiply right = leftAlso.multiply rightAlso := by
  rw [multiply, multiply, leftValue, leftUnit, rightValue, rightUnit]

/-- A quotient depends on the order of families in the dividend and in the inverse of the
divisor. -/
theorem divide_congr {left right leftAlso rightAlso : Quantity Float}
    (leftValue : left.value = leftAlso.value)
    (leftUnit : left.unit.byFamily = leftAlso.unit.byFamily)
    (rightValue : right.value = rightAlso.value)
    (rightUnit : (right.unit.power (-1)).byFamily = (rightAlso.unit.power (-1)).byFamily) :
    left.divide right = leftAlso.divide rightAlso := by
  rw [divide, divide, rightValue]
  split
  · rfl
  · refine congrArg (Bind.bind _) (funext fun reciprocal => ?_)
    exact multiply_congr leftValue leftUnit rfl rightUnit

end Quantity

namespace CompoundUnit

open Quantity (multiply divide)

variable {first second : CompoundUnit Float}

/-- A unit and the same powers in another order cannot be told apart, as long as the powers are of
different families and are written at different places: they have the same canonical order and the
same text, they are compatible with the same units and convert alike from and to them, and products
and quotients with any quantity on either side are the same. -/
theorem order_unobservable (reordered : first.powers.Perm second.powers)
    (distinct : first.Distinct) (other : CompoundUnit Float) :
    first.canonical = second.canonical ∧ first.text = second.text ∧
    first.isCompatible other = second.isCompatible other ∧
    other.isCompatible first = other.isCompatible second ∧
    (∀ value : Float,
      (convert value first other).mapError ConversionError.report =
        (convert value second other).mapError ConversionError.report ∧
      (convert value other first).mapError ConversionError.report =
        (convert value other second).mapError ConversionError.report) ∧
    (∀ value otherValue : Float,
      multiply ⟨value, first⟩ ⟨otherValue, other⟩ = multiply ⟨value, second⟩ ⟨otherValue, other⟩ ∧
      multiply ⟨otherValue, other⟩ ⟨value, first⟩ = multiply ⟨otherValue, other⟩ ⟨value, second⟩ ∧
      divide ⟨value, first⟩ ⟨otherValue, other⟩ = divide ⟨value, second⟩ ⟨otherValue, other⟩ ∧
      divide ⟨otherValue, other⟩ ⟨value, first⟩ =
        divide ⟨otherValue, other⟩ ⟨value, second⟩) := by
  have canonical := canonical_eq_of_perm reordered distinct.written
  have byFamily := byFamily_eq_of_perm reordered distinct.apart
  have inverse : (first.power (-1)).byFamily = (second.power (-1)).byFamily :=
    byFamily_eq_of_perm (power_perm reordered _) (apart_power distinct.apart _)
  refine ⟨canonical, text_congr canonical, isCompatible_congr canonical rfl,
    isCompatible_congr rfl canonical, fun value => ⟨?_, ?_⟩,
    fun value otherValue => ⟨?_, ?_, ?_, ?_⟩⟩
  · exact convert_congr canonical rfl value
  · exact convert_congr rfl canonical value
  · exact Quantity.multiply_congr rfl byFamily rfl rfl
  · exact Quantity.multiply_congr rfl rfl rfl byFamily
  · exact Quantity.divide_congr rfl byFamily rfl rfl
  · exact Quantity.divide_congr rfl rfl rfl inverse

/-- A unit that is stored from its end, with one symbol on both sides of the bar. -/
theorem order_unobservable_across_bar :
    let metre : NamedUnit Float := ⟨"meter", "m", [], "length", 1, 0⟩
    let first : CompoundUnit Float := ⟨[⟨.custom "m", -2⟩, ⟨.custom "s", 1⟩, ⟨metre, 1⟩]⟩
    let second : CompoundUnit Float := ⟨[⟨metre, 1⟩, ⟨.custom "s", 1⟩, ⟨.custom "m", -2⟩]⟩
    first.text = "m s / m^2" ∧ second.text = "m s / m^2" ∧
      divide ⟨3, first⟩ ⟨2, first⟩ = divide ⟨3, second⟩ ⟨2, first⟩ := by
  intro metre first second
  have reordered : first.powers.Perm second.powers := (List.reverse_perm first.powers).symm
  have distinct : first.Distinct := by
    constructor
    · simp [first, metre, Apart, NamedUnit.custom]
    · decide +kernel
  have sorted : second.powers.Pairwise fun earlier later =>
      UnitPower.writtenBefore earlier later = true := by
    decide +kernel
  have canonical : second.canonical = second :=
    congrArg CompoundUnit.mk (List.mergeSort_of_pairwise sorted)
  have written : second.text = "m s / m^2" := by
    rw [text, words, canonical]
    decide +kernel
  obtain ⟨_, texts, _, _, _, products⟩ := order_unobservable reordered distinct first
  exact ⟨texts.trans written, written, (products 3 2).2.2.1⟩

end CompoundUnit

end UnitSheet
