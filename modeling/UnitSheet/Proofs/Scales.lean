/-
This file says that no unit has a negative scale.

The power of a scale is refused only for a negative base, and only then would its result not be
a real number. Neither the factors of the catalogue nor those that exchange rates give are below
zero, since the reciprocal of a value that is not zero or less is not below zero either. The
unit algebra makes no new units, so evaluation never meets a negative scale (`tame_scales`).
-/

import Mathlib
import UnitSheet.Proofs.Evaluation

namespace UnitSheet

/-! ### Signs of floating-point values -/

namespace Floating

open Float.Model
open Float.Model.UnpackedFloat (Sign unpackSign unpackSign_packComponents)

/-- The sign of a value; an undefined value counts as positive. -/
def signOf : UnpackedFloat → Sign
  | .infinity sign | .zero sign | .finite sign _ _ _ => sign
  | .notANumber => .positive

/-- Packing a value without a minus sign leaves the sign bit clear. -/
theorem unpackSign_pack {spec : Format} {value : UnpackedFloat}
    (positive : signOf value = .positive) : unpackSign (UnpackedFloat.pack spec value) = 0#1 := by
  cases value with
  | notANumber => exact unpackSign_packComponents ..
  | infinity sign | zero sign =>
    cases positive
    exact unpackSign_packComponents ..
  | finite sign mantissa exponent _ =>
    cases positive
    simp only [UnpackedFloat.pack]
    repeat' split
    all_goals exact unpackSign_packComponents ..

theorem signOf_unpack {spec : Format} (bits : BitVec spec.numBits)
    (clear : unpackSign bits = 0#1) : signOf (UnpackedFloat.unpack spec bits) = .positive := by
  simp only [UnpackedFloat.unpack, clear]
  repeat' split
  all_goals rfl

/-- A quotient of values without a minus sign has none. -/
theorem signOf_div {spec : Format} {first second : UnpackedFloat}
    (left : signOf first = .positive) (right : signOf second = .positive) :
    signOf (UnpackedFloat.div spec first second) = .positive := by
  cases first <;> cases second <;> cases left <;> cases right
  all_goals try rfl
  simp only [UnpackedFloat.div, UnpackedFloat.roundWithAccuracy]
  split <;> rfl

theorem unpack_zero : (0 : Float).toModel.unpack = .zero .positive :=
  rfl

/-- A value without a minus sign is not below zero. -/
theorem not_lt_zero_of_signOf {value : Float} (positive : signOf value.toModel.unpack = .positive) :
    ¬ value < 0 := by
  intro below
  have compared : (value.toModel.unpack.compare (0 : Float).toModel.unpack == some .lt) = true :=
    of_decide_eq_true below
  rw [unpack_zero] at compared
  cases equal : value.toModel.unpack with
  | notANumber =>
    rw [equal] at compared
    cases compared
  | infinity sign | zero sign | finite sign _ _ _ =>
    rw [equal] at compared positive
    cases positive
    cases compared

/-- A value that is not zero or less has no minus sign. -/
theorem signOf_of_not_le_zero {value : Float} (above : ¬ value ≤ 0) :
    signOf value.toModel.unpack = .positive := by
  refine Classical.byContradiction fun negative => above ?_
  show decide ((value.toModel.unpack.compare (0 : Float).toModel.unpack).any (·.isLE) = true) = true
  rw [unpack_zero]
  cases equal : value.toModel.unpack with
  | notANumber =>
    rw [equal] at negative
    exact absurd rfl negative
  | infinity sign | zero sign | finite sign _ _ _ =>
    rw [equal] at negative
    cases sign
    · rfl
    · exact absurd rfl negative

/-- The reciprocal of an acceptable exchange rate is not below zero. -/
theorem not_one_div_lt_zero {rate : Float} (above : ¬ rate ≤ 0) : ¬ 1 / rate < 0 := by
  refine not_lt_zero_of_signOf (signOf_unpack _ (unpackSign_pack (signOf_div rfl ?_)))
  exact signOf_of_not_le_zero above

/-- The power of a scale that is not negative is not refused for its sign. -/
theorem avoids_scalePower {base : Float} (scale : ¬ base < 0) (exponent : Float) :
    Avoids .negativeToFractionalPower (scalePower base exponent) := by
  unfold scalePower
  split
  · split
    · nofun
    · rw [if_neg]
      · dsimp only
        split <;> nofun
      · rw [decide_eq_false scale]
        nofun
  · nofun

end Floating

/-! ### Units of a product -/

namespace CompoundUnit

/-- All units in a product are of one kind. -/
def Over (holds : NamedUnit Float → Prop) (unit : CompoundUnit Float) : Prop :=
  ∀ power ∈ unit.powers, holds power.unit

variable {holds : NamedUnit Float → Prop} {unit : CompoundUnit Float}

theorem over_empty : empty.Over holds :=
  fun _ member => absurd member List.not_mem_nil

theorem Over.canonical (held : unit.Over holds) : unit.canonical.Over holds :=
  fun power member => held power (List.mem_mergeSort.mp member)

theorem Over.byFamily (held : unit.Over holds) : ∀ power ∈ unit.byFamily, holds power.unit :=
  fun power member => held power (List.mem_mergeSort.mp member)

section

variable {R : Type} [Scalar R] {factor raised : UnitPower R} {exponent : R}

/-- A power that is raised keeps its unit, unless its exponent becomes zero. -/
theorem eq_raised (equal : (if factor.exponent * exponent == Scalar.zero then none
    else some ⟨factor.unit, factor.exponent * exponent⟩) = some raised) :
    raised = ⟨factor.unit, factor.exponent * exponent⟩ ∧
      (raised.exponent == Scalar.zero) = false := by
  split at equal
  · cases equal
  · rename_i nonzero
    cases equal
    exact ⟨rfl, Bool.eq_false_iff.mpr nonzero⟩

theorem mem_power {unit : CompoundUnit R} (member : raised ∈ (unit.power exponent).powers) :
    ∃ factor ∈ unit.powers, raised = ⟨factor.unit, factor.exponent * exponent⟩ ∧
      (raised.exponent == Scalar.zero) = false := by
  obtain ⟨factor, among, equal⟩ := List.mem_filterMap.mp member
  exact ⟨factor, among, eq_raised equal⟩

end

theorem Over.power (held : unit.Over holds) (exponent : Float) :
    (unit.power exponent).Over holds := by
  intro raised member
  obtain ⟨factor, among, rfl, _⟩ := mem_power member
  exact held factor among

/-- A power of a product: one of either factor, or one in a unit of the first factor that has not
cancelled. -/
def Merged (first second : List (UnitPower Float)) (power : UnitPower Float) : Prop :=
  power ∈ first ∨ power ∈ second ∨
    ∃ known ∈ first, power.unit = known.unit ∧ (power.exponent == 0) = false

theorem Merged.mono {lefts rights first second : List (UnitPower Float)} {power : UnitPower Float}
    (merged : Merged lefts rights power) (left : lefts ⊆ first) (right : rights ⊆ second) :
    Merged first second power := by
  rcases merged with inLefts | inRights | ⟨known, inLefts, sum⟩
  · exact .inl (left inLefts)
  · exact .inr (.inl (right inRights))
  · exact .inr (.inr ⟨known, left inLefts, sum⟩)

theorem merged_of_mergePowers {value : Float} {first second : List (UnitPower Float)}
    {merged : Float × List (UnitPower Float)}
    (equal : mergePowers value first second = .ok merged) :
    ∀ power ∈ merged.2, Merged first second power := by
  induction value, first, second using mergePowers.induct generalizing merged with
  | case1 value second =>
    rw [mergePowers] at equal
    cases equal
    exact fun power member => .inr (.inl member)
  | case2 value first nonempty =>
    rw [mergePowers] at equal
    · cases equal
      exact fun power member => .inl member
    · exact nonempty
  | case3 value head lefts other rights same inductionHypothesis =>
    rw [mergePowers, if_pos same] at equal
    obtain ⟨converted, _, equal⟩ := bind_eq_ok.mp equal
    obtain ⟨⟨product, rest⟩, mergedRest, equal⟩ := bind_eq_ok.mp equal
    cases equal
    have inRest := fun power member => (inductionHypothesis converted mergedRest power member).mono
      (List.subset_cons_self head lefts) (List.subset_cons_self other rights)
    dsimp only
    split
    · exact inRest
    · rename_i nonzero
      -- The value was converted to the left unit, so only that one can be left of the two.
      have sum : Merged (head :: lefts) (other :: rights)
          ⟨head.unit, head.exponent + other.exponent⟩ :=
        .inr (.inr ⟨head, List.mem_cons_self, rfl, Bool.eq_false_iff.mpr nonzero⟩)
      exact List.forall_mem_cons.mpr ⟨sum, inRest⟩
  | case4 value head lefts other rights differs before inductionHypothesis =>
    rw [mergePowers, if_neg differs, if_pos before] at equal
    obtain ⟨⟨product, rest⟩, mergedRest, equal⟩ := bind_eq_ok.mp equal
    cases equal
    refine List.forall_mem_cons.mpr ⟨.inl List.mem_cons_self, fun power member => ?_⟩
    exact (inductionHypothesis mergedRest power member).mono (List.subset_cons_self head lefts)
      (List.Subset.refl _)
  | case5 value head lefts other rights differs notBefore inductionHypothesis =>
    rw [mergePowers, if_neg differs, if_neg notBefore] at equal
    obtain ⟨⟨product, rest⟩, mergedRest, equal⟩ := bind_eq_ok.mp equal
    cases equal
    refine List.forall_mem_cons.mpr ⟨.inr (.inl List.mem_cons_self), fun power member => ?_⟩
    exact (inductionHypothesis mergedRest power member).mono (List.Subset.refl _)
      (List.subset_cons_self other rights)

/-- Merging makes no new units. -/
theorem over_mergePowers {value : Float} {first second : List (UnitPower Float)}
    {merged : Float × List (UnitPower Float)} (left : ∀ power ∈ first, holds power.unit)
    (right : ∀ power ∈ second, holds power.unit)
    (equal : mergePowers value first second = .ok merged) :
    ∀ power ∈ merged.2, holds power.unit := by
  intro power member
  rcases merged_of_mergePowers equal power member with
    inFirst | inSecond | ⟨known, inFirst, same, _⟩
  · exact left power inFirst
  · exact right power inSecond
  · exact same ▸ left known inFirst

end CompoundUnit

/-! ### Conversion without negative scales -/

/-- A unit whose scale is not negative. -/
def NamedUnit.Scaled (unit : NamedUnit Float) : Prop :=
  ¬ unit.factor < 0

instance (unit : NamedUnit Float) : Decidable unit.Scaled :=
  inferInstanceAs (Decidable (¬ unit.factor < 0))

theorem NamedUnit.avoids_rescale (value : Float) {source target : NamedUnit Float}
    (left : source.Scaled) (right : target.Scaled) (exponent : Float) :
    Avoids .negativeToFractionalPower (rescale value source target exponent) := by
  unfold rescale
  split
  · exact avoids_ok _ value
  · refine (Floating.avoids_scalePower left exponent).bind fun sourceScale => ?_
    refine (Floating.avoids_scalePower right exponent).bind fun targetScale => ?_
    exact (Floating.avoids_divide _ targetScale).bind fun _ => avoids_ok _ _

theorem NamedUnit.avoids_convert (value : Float) {source target : NamedUnit Float}
    (left : source.Scaled) (right : target.Scaled) (exponent : Float) :
    Avoids (.arithmetic .negativeToFractionalPower) (convert value source target exponent) := by
  unfold convert
  split
  · refine (avoids_rescale value left right exponent).mapError fun _ => ?_
    exact ConversionError.arithmetic.inj
  · nofun

namespace CompoundUnit

theorem avoids_convert (value : Float) {source target : CompoundUnit Float}
    (left : source.Over NamedUnit.Scaled) (right : target.Over NamedUnit.Scaled) :
    Avoids (.arithmetic .negativeToFractionalPower) (convert value source target) := by
  unfold convert
  split
  · have each : ∀ pair ∈ source.aligned target, pair.1.unit.Scaled ∧ pair.2.unit.Scaled := by
      rintro ⟨first, second⟩ member
      have inBoth := List.of_mem_zip member
      exact ⟨left.canonical first inBoth.1, right.canonical second inBoth.2⟩
    generalize source.aligned target = pairs at each
    induction pairs generalizing value with
    | nil => exact avoids_ok _ value
    | cons pair rest inductionHypothesis =>
      obtain ⟨atPair, inRest⟩ := List.forall_mem_cons.mp each
      rw [List.foldlM_cons]
      refine (NamedUnit.avoids_convert value atPair.1 atPair.2 _).bind fun converted => ?_
      exact inductionHypothesis converted inRest
  · nofun

theorem avoids_mergePowers {value : Float} {first second : List (UnitPower Float)}
    (left : ∀ power ∈ first, power.unit.Scaled) (right : ∀ power ∈ second, power.unit.Scaled) :
    Avoids (.arithmetic .negativeToFractionalPower) (mergePowers value first second) := by
  induction value, first, second using mergePowers.induct with
  | case1 value second =>
    rw [mergePowers]
    exact avoids_ok _ _
  | case2 value first nonempty =>
    rw [mergePowers]
    · exact avoids_ok _ _
    · exact nonempty
  | case3 value head lefts other rights same inductionHypothesis =>
    obtain ⟨atHead, inLefts⟩ := List.forall_mem_cons.mp left
    obtain ⟨atOther, inRights⟩ := List.forall_mem_cons.mp right
    rw [mergePowers, if_pos same]
    refine (NamedUnit.avoids_convert value atOther atHead _).bind fun converted => ?_
    exact (inductionHypothesis converted inLefts inRights).bind fun _ => avoids_ok _ _
  | case4 value head lefts other rights differs before inductionHypothesis =>
    rw [mergePowers, if_neg differs, if_pos before]
    have inLefts := (List.forall_mem_cons.mp left).2
    exact (inductionHypothesis inLefts right).bind fun _ => avoids_ok _ _
  | case5 value head lefts other rights differs notBefore inductionHypothesis =>
    rw [mergePowers, if_neg differs, if_neg notBefore]
    have inRights := (List.forall_mem_cons.mp right).2
    exact (inductionHypothesis left inRights).bind fun _ => avoids_ok _ _

end CompoundUnit

/-- The failures that leave negative scales aside. -/
def Failure.Ordinary (failure : Failure) : Prop :=
  failure ≠ .conversion (.arithmetic .negativeToFractionalPower)

/-- Where no unit has a negative scale, evaluation makes none and never fails for one. -/
theorem tame_scales : Tame (CompoundUnit.Over NamedUnit.Scaled) Failure.Ordinary where
  empty := CompoundUnit.over_empty
  power := fun _ exponent held => held.power exponent
  product := by
    intro first second product left right equal
    obtain ⟨⟨value, powers⟩, merged, equal⟩ := bind_eq_ok.mp equal
    cases equal
    have held : (CompoundUnit.mk powers).Over NamedUnit.Scaled :=
      CompoundUnit.over_mergePowers left.byFamily right.byFamily merged
    exact held.canonical
  unmultiplied := by
    rintro first second error left right equal refused
    cases refused
    have avoids : Avoids (.arithmetic .negativeToFractionalPower) (CompoundUnit.mergePowers
        (first.value * second.value) first.unit.byFamily second.unit.byFamily) :=
      CompoundUnit.avoids_mergePowers left.byFamily right.byFamily
    exact (avoids.bind fun _ => avoids_ok _ _) equal
  unconverted := by
    rintro quantity target error left right equal refused
    cases refused
    have avoids := CompoundUnit.avoids_convert quantity.value left right
    exact (avoids.bind fun _ => avoids_ok _ _) equal
  angle := by
    rintro value error equal refused
    cases refused
    exact NamedUnit.avoids_convert value (by decide) (by decide) 1 equal
  arithmetic := by
    rintro cause differs refused
    cases refused
    exact differs rfl
  other := fun _ differs _ refused => differs _ refused
  reference := by
    rintro failure name about rfl
    cases about

end UnitSheet
