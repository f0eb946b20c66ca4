/-
This file says which units convert into each other, and that conversions fit together.

Two units are compatible when the powers of both, each put in its own canonical order, agree one
by one. The order of a unit does not depend on the other one, so compatibility goes from one unit to
the next as agreement of powers does (`isCompatible_iff`): it is symmetric and transitive because
comparing exponents is, and reflexive as long as every exponent equals itself. A conversion is
refused for its units only if they are not compatible. When nothing is rounded, it makes no
difference whether a value goes to a unit directly or through a third one
(`Convertible.exists_through`): scales can be divided out again, and so can the shifts of a single
power, while shifts between several powers would be applied in different orders.
-/

import Mathlib
import UnitSheet.Catalog.Builtin
import UnitSheet.Proofs.Magnitude

namespace UnitSheet

/-! ### Agreement of powers -/

namespace UnitPower

variable {R : Type} [Scalar R] {first second third : UnitPower R}

theorem agrees_iff : first.agrees second = true ↔
    (first.exponent == second.exponent) = true ∧ first.unit.family = second.unit.family :=
  (Bool.and_eq_true _ _).to_iff.trans (and_congr_right fun _ => beq_iff_eq)

theorem agrees_refl (defined : (first.exponent == first.exponent) = true) :
    first.agrees first = true :=
  agrees_iff.mpr ⟨defined, rfl⟩

variable [PartialEquivBEq R]

theorem agrees_symm (agrees : first.agrees second = true) : second.agrees first = true := by
  obtain ⟨exponent, family⟩ := agrees_iff.mp agrees
  exact agrees_iff.mpr ⟨BEq.symm exponent, family.symm⟩

theorem agrees_trans (left : first.agrees second = true) (right : second.agrees third = true) :
    first.agrees third = true := by
  obtain ⟨exponent, family⟩ := agrees_iff.mp left
  obtain ⟨otherExponent, otherFamily⟩ := agrees_iff.mp right
  exact agrees_iff.mpr ⟨BEq.trans exponent otherExponent, family.trans otherFamily⟩

/-- A power is of a family and has an exponent. -/
def isOf (family : String) (exponent : R) (power : UnitPower R) : Bool :=
  power.unit.family == family && power.exponent == exponent

/-- Powers that agree are of the same family and have the same exponent. -/
theorem isOf_eq_of_agrees (agrees : first.agrees second = true) (family : String) (exponent : R) :
    first.isOf family exponent = second.isOf family exponent := by
  obtain ⟨same, families⟩ := agrees_iff.mp agrees
  rw [isOf, isOf, families, BEq.congr_left same]

end UnitPower

/-! ### Compatible units -/

/-- A conversion is refused because of the units and not because of an arithmetic operation. -/
def ConversionError.IsMismatch {R : Type} : ConversionError R → Prop
  | differentFamilies _ _ | incompatible _ _ => True
  | arithmetic _ => False

namespace CompoundUnit

section

variable {R : Type} [Scalar R] {first second third : CompoundUnit R}

theorem canonical_perm (unit : CompoundUnit R) : unit.canonical.powers.Perm unit.powers :=
  List.mergeSort_perm _ _

/-- Units are compatible when their powers agree in canonical order. -/
theorem isCompatible_iff : first.isCompatible second = true ↔
    List.Forall₂ (fun source target => source.agrees target = true) first.canonical.powers
      second.canonical.powers := by
  rw [isCompatible, Bool.and_eq_true, beq_iff_eq, List.all_eq_true, List.forall₂_iff_zip,
    first.canonical_perm.length_eq, second.canonical_perm.length_eq, Prod.forall]
  rfl

theorem length_eq_of_isCompatible (compatible : first.isCompatible second = true) :
    first.powers.length = second.powers.length :=
  eq_of_beq ((Bool.and_eq_true _ _).mp compatible).1

theorem isCompatible_refl
    (defined : ∀ power ∈ first.powers, (power.exponent == power.exponent) = true) :
    first.isCompatible first = true := by
  refine isCompatible_iff.mpr (List.forall₂_same.mpr fun power member => ?_)
  exact UnitPower.agrees_refl (defined power (first.canonical_perm.mem_iff.mp member))

/-- No conversion between compatible units is refused for its units. -/
theorem not_isMismatch_of_convert {value : R} {error : ConversionError R}
    (compatible : first.isCompatible second = true)
    (refused : convert value first second = .error error) : ¬ error.IsMismatch := by
  have agrees := List.all_eq_true.mp ((Bool.and_eq_true _ _).mp compatible).2
  rw [convert, if_pos compatible] at refused
  generalize first.aligned second = pairs at agrees refused
  induction pairs generalizing value with
  | nil => cases refused
  | cons pair rest inductionHypothesis =>
    obtain ⟨source, target⟩ := pair
    obtain ⟨atPair, inRest⟩ := List.forall_mem_cons.mp agrees
    have family : source.unit.sameFamily target.unit = true := ((Bool.and_eq_true _ _).mp atPair).2
    rw [List.foldlM_cons] at refused
    cases converted : source.unit.convert value target.unit source.exponent with
    | ok next =>
      simp only [converted] at refused
      exact inductionHypothesis inRest refused
    | error cause =>
      simp only [converted] at refused
      cases refused
      rw [NamedUnit.convert, if_pos family] at converted
      obtain ⟨arithmetic, _, rfl⟩ := mapError_eq_error.mp converted
      exact id

/-- A conversion is refused for its units exactly when they are not compatible. -/
theorem exists_mismatch_iff (value : R) :
    (∃ error, convert value first second = .error error ∧ error.IsMismatch) ↔
      first.isCompatible second = false := by
  constructor
  · rintro ⟨error, refused, mismatch⟩
    exact Bool.eq_false_iff.mpr fun compatible =>
      not_isMismatch_of_convert compatible refused mismatch
  · intro incompatible
    refine ⟨.incompatible first second, ?_, trivial⟩
    rw [convert, incompatible, if_neg Bool.false_ne_true]

/-- A unit and itself need no arithmetic. -/
theorem convert_self
    (defined : ∀ power ∈ first.powers, (power.exponent == power.exponent) = true) (value : R) :
    convert value first first = .ok value := by
  have same : ∀ pair ∈ first.aligned first, pair.1 = pair.2 := fun pair member =>
    List.forall₂_iff_zip.mp (List.forall₂_same.mpr fun _ _ => rfl) |>.2 member
  rw [convert, if_pos (isCompatible_refl defined)]
  generalize first.aligned first = pairs at same
  induction pairs with
  | nil => rfl
  | cons pair rest inductionHypothesis =>
    obtain ⟨source, target⟩ := pair
    obtain ⟨atPair, inRest⟩ := List.forall_mem_cons.mp same
    cases atPair
    have family : source.unit.sameFamily source.unit = true := beq_self_eq_true _
    have unchanged : source.unit.convert value source.unit source.exponent = .ok value := by
      rw [NamedUnit.convert, if_pos family, NamedUnit.rescale, if_pos rfl]
      rfl
    rw [List.foldlM_cons]
    simp only [unchanged]
    exact inductionHypothesis inRest

variable [PartialEquivBEq R]

theorem isCompatible_symm (compatible : first.isCompatible second = true) :
    second.isCompatible first = true := by
  refine isCompatible_iff.mpr (List.Forall₂.flip ?_)
  exact (isCompatible_iff.mp compatible).imp fun _ _ => UnitPower.agrees_symm

theorem isCompatible_trans (left : first.isCompatible second = true)
    (right : second.isCompatible third = true) : first.isCompatible third = true := by
  rw [isCompatible_iff] at left right ⊢
  generalize first.canonical.powers = powers, second.canonical.powers = middle,
    third.canonical.powers = others at left right ⊢
  induction left generalizing others with
  | nil => exact right
  | cons agrees _ inductionHypothesis =>
    obtain ⟨power, rest, alsoAgrees, inRest, rfl⟩ := List.forall₂_cons_left_iff.mp right
    exact .cons (UnitPower.agrees_trans agrees alsoAgrees) (inductionHypothesis rest inRest)

/-- How many powers of a unit are of a family and have an exponent. -/
def occurrences (unit : CompoundUnit R) (family : String) (exponent : R) : ℕ :=
  unit.powers.countP (UnitPower.isOf family exponent)

/-- Compatible units have the same families with the same exponents, and each as often. -/
theorem occurrences_eq_of_isCompatible (compatible : first.isCompatible second = true)
    (family : String) (exponent : R) :
    first.occurrences family exponent = second.occurrences family exponent := by
  have agreeing := isCompatible_iff.mp compatible
  rw [occurrences, occurrences, ← first.canonical_perm.countP_eq, ← second.canonical_perm.countP_eq]
  generalize first.canonical.powers = powers, second.canonical.powers = others at agreeing ⊢
  induction agreeing with
  | nil => rfl
  | cons agrees _ inductionHypothesis =>
    rw [List.countP_cons, List.countP_cons, inductionHypothesis,
      UnitPower.isOf_eq_of_agrees agrees]

end

/-! ### Exact conversions -/

/-- All powers are whole and of units whose factor can be divided by. -/
def Regular (powers : List (UnitPower ℚ)) : Prop :=
  ∀ power ∈ powers, power.Regular

/-- No unit is shifted against the base of its family. -/
def Unshifted (powers : List (UnitPower ℚ)) : Prop :=
  ∀ power ∈ powers, power.unit.shift = 0

/-- What a value is worth in the bases of the families of its unit. A shift has a meaning in a
single power only. -/
def inBase (value : ℚ) : List (UnitPower ℚ) → ℚ
  | [power] => (value + power.unit.shift) * power.scale
  | powers => value * scale powers

variable {powers : List (UnitPower ℚ)}

theorem inBase_of_unshifted (unshifted : Unshifted powers) (value : ℚ) :
    inBase value powers = value * scale powers := by
  unfold inBase
  split
  · rename_i power
    rw [unshifted power List.mem_cons_self, add_zero, scale_cons, scale_nil, mul_one]
  · rfl

theorem Regular.scale_ne_zero (regular : Regular powers) : scale powers ≠ 0 := by
  refine List.prod_ne_zero fun zero => ?_
  obtain ⟨power, member, equal⟩ := List.mem_map.mp zero
  exact (regular power member).scale_ne_zero equal

/-- Different values in a unit have different worths. -/
theorem Regular.inBase_injective (regular : Regular powers) :
    Function.Injective (inBase · powers) := by
  intro value other same
  unfold inBase at same
  split at same
  · rename_i power
    exact add_right_cancel (mul_right_cancel₀ (regular power List.mem_cons_self).scale_ne_zero same)
  · exact mul_right_cancel₀ regular.scale_ne_zero same

theorem Regular.linear (regular : Regular powers) (unshifted : Unshifted powers) :
    ∀ power ∈ powers, power.Linear :=
  fun power member => ⟨regular power member, unshifted power member⟩

/-- Conversion between single powers keeps what the value is worth, the shifts included. -/
theorem exists_convert_single {source target : UnitPower ℚ} (left : source.Regular)
    (right : target.Regular)
    (consistent : source.unit.id = target.unit.id → source.unit = target.unit)
    (compatible : isCompatible ⟨[source]⟩ ⟨[target]⟩ = true) (value : ℚ) :
    ∃ converted, convert value ⟨[source]⟩ ⟨[target]⟩ = .ok converted ∧
      inBase converted [target] = inBase value [source] := by
  have paired : aligned ⟨[source]⟩ ⟨[target]⟩ = [(source, target)] := by
    simp only [aligned, canonical, List.mergeSort_singleton, List.zip_cons_cons, List.zip_nil_left]
  have agrees := List.all_eq_true.mp ((Bool.and_eq_true _ _).mp compatible).2
  rw [paired] at agrees
  obtain ⟨exponent, family⟩ := UnitPower.agrees_iff.mp (agrees _ List.mem_cons_self)
  have scale : target.unit.factor ^ source.exponent.num = target.scale := by
    rw [show source.exponent = target.exponent from eq_of_beq exponent]
    rfl
  refine ⟨(value + source.unit.shift) * source.scale / target.scale - target.unit.shift, ?_, ?_⟩
  · rw [convert, if_pos compatible, paired, List.foldlM_cons, ← scale]
    simp only [List.foldlM_nil, bind_pure]
    exact NamedUnit.convert_eq_shifted value left right (beq_iff_eq.mpr family) consistent
  · show (_ - target.unit.shift + target.unit.shift) * target.scale = _
    rw [sub_add_cancel]
    exact div_mul_cancel₀ _ right.scale_ne_zero

/-- Values convert from one unit to another without a rounding and without a choice: the powers are
whole, the factors can be divided by, an id belongs to one unit, and shifts occur in single powers
only. -/
structure Convertible (source target : CompoundUnit ℚ) : Prop where
  left : Regular source.powers
  right : Regular target.powers
  consistent : Consistent source.powers target.powers
  simple : Unshifted source.powers ∧ Unshifted target.powers ∨ source.powers.length = 1
  compatible : source.isCompatible target = true

variable {first second third : CompoundUnit ℚ}

theorem Convertible.exists_convert (convertible : Convertible first second) (value : ℚ) :
    ∃ converted, convert value first second = .ok converted ∧
      inBase converted second.powers = inBase value first.powers := by
  obtain ⟨left, right, consistent, simple, compatible⟩ := convertible
  rcases simple with ⟨unshifted, alsoUnshifted⟩ | single
  · rw [inBase_of_unshifted unshifted]
    simp only [inBase_of_unshifted alsoUnshifted]
    exact CompoundUnit.exists_convert (left.linear unshifted) (right.linear alsoUnshifted)
      consistent compatible value
  · have alsoSingle := (length_eq_of_isCompatible compatible).symm.trans single
    obtain ⟨⟨source⟩, ⟨target⟩⟩ := first, second
    obtain ⟨source, rfl⟩ := List.length_eq_one_iff.mp single
    obtain ⟨target, rfl⟩ := List.length_eq_one_iff.mp alsoSingle
    exact exists_convert_single (left source List.mem_cons_self) (right target List.mem_cons_self)
      (consistent source List.mem_cons_self target List.mem_cons_self) compatible value

theorem Consistent.symm {powers others : List (UnitPower ℚ)}
    (consistent : Consistent powers others) : Consistent others powers :=
  fun known inOthers other inPowers same =>
    (consistent other inPowers known inOthers same.symm).symm

theorem Convertible.symm (convertible : Convertible first second) : Convertible second first where
  left := convertible.right
  right := convertible.left
  consistent := convertible.consistent.symm
  simple := by
    refine convertible.simple.imp And.symm fun single => ?_
    exact (length_eq_of_isCompatible convertible.compatible).symm.trans single
  compatible := isCompatible_symm convertible.compatible

theorem Convertible.trans (toSecond : Convertible first second) (toThird : Convertible second third)
    (consistent : Consistent first.powers third.powers) : Convertible first third where
  left := toSecond.left
  right := toThird.right
  consistent := consistent
  simple := by
    rcases toSecond.simple with ⟨unshifted, _⟩ | single
    · refine toThird.simple.imp (fun others => ⟨unshifted, others.2⟩) fun single => ?_
      exact (length_eq_of_isCompatible toSecond.compatible).trans single
    · exact .inr single
  compatible := isCompatible_trans toSecond.compatible toThird.compatible

/-- A value that goes to a unit through another one is the value that goes there directly, and it
comes back unchanged. -/
theorem Convertible.exists_through (toSecond : Convertible first second)
    (toThird : Convertible second third) (consistent : Consistent first.powers third.powers)
    (value : ℚ) : ∃ middle last, convert value first second = .ok middle ∧
      convert middle second third = .ok last ∧ convert value first third = .ok last ∧
      convert middle second first = .ok value := by
  obtain ⟨middle, atSecond, keptSecond⟩ := toSecond.exists_convert value
  obtain ⟨last, atThird, keptThird⟩ := toThird.exists_convert middle
  obtain ⟨alsoLast, directly, keptDirectly⟩ :=
    (toSecond.trans toThird consistent).exists_convert value
  obtain ⟨returned, back, keptBack⟩ := toSecond.symm.exists_convert middle
  have same : alsoLast = last :=
    toThird.right.inBase_injective (keptDirectly.trans (keptThird.trans keptSecond).symm)
  have unchanged : returned = value :=
    toSecond.left.inBase_injective (keptBack.trans keptSecond)
  exact ⟨middle, last, atSecond, atThird, same ▸ directly, unchanged ▸ back⟩

/-! ### Both kinds of numbers -/

/-- No exponent of a unit is undefined. -/
def Defined (unit : CompoundUnit Float) : Prop :=
  ∀ power ∈ unit.powers, power.exponent.isNaN = false

theorem Defined.beq_self {unit : CompoundUnit Float} (defined : unit.Defined) :
    ∀ power ∈ unit.powers, (power.exponent == power.exponent) = true := by
  intro power member
  refine Float.beq_self_iff.mpr fun undefined => ?_
  have number := defined power member
  rw [undefined] at number
  exact absurd number (by decide)

/-- Compatibility is an equivalence, apart from units with undefined exponents, which are not
compatible with themselves. Compatible units have as many powers of each family with each exponent,
and a conversion is refused for its units exactly when they are not compatible. When nothing is
rounded, it makes no difference whether a value goes to a unit directly or through a third one,
and a value that goes to another unit comes back unchanged. -/
theorem conversions_fit :
    (∀ first second third : CompoundUnit Float,
      (first.Defined → first.isCompatible first = true ∧
        ∀ value, convert value first first = .ok value) ∧
      (first.isCompatible second = true → second.isCompatible first = true) ∧
      (first.isCompatible second = true → second.isCompatible third = true →
        first.isCompatible third = true) ∧
      (first.isCompatible second = true → ∀ family exponent,
        first.occurrences family exponent = second.occurrences family exponent) ∧
      ∀ value, (∃ error, convert value first second = .error error ∧ error.IsMismatch) ↔
        first.isCompatible second = false) ∧
    ∀ first second third : CompoundUnit ℚ, Convertible first second → Convertible second third →
      Consistent first.powers third.powers → ∀ value, ∃ middle last,
        convert value first second = .ok middle ∧ convert middle second third = .ok last ∧
        convert value first third = .ok last ∧ convert middle second first = .ok value := by
  constructor
  · intro first second third
    refine ⟨fun defined => ⟨isCompatible_refl defined.beq_self, convert_self defined.beq_self⟩,
      isCompatible_symm, isCompatible_trans, occurrences_eq_of_isCompatible, exists_mismatch_iff⟩
  · intro first second third toSecond toThird consistent value
    exact toSecond.exists_through toThird consistent value

/-- Two speeds, and twenty degrees Celsius that become Kelvin by way of Fahrenheit. -/
theorem conversions_fit_of_temperatures :
    let speed (length time : NamedUnit Float) : CompoundUnit Float := ⟨[⟨length, 1⟩, ⟨time, -1⟩]⟩
    let slow := speed (Catalog.scaled "meter" "foot" "ft" [] 0.3048)
      (Catalog.scaled "second" "day" "d" [] 86400)
    let fast := speed (Catalog.scaled "meter" "kilometer" "km" [] 1000)
      (Catalog.scaled "second" "second" "s" [] 1)
    let temperature (id : String) (factor shift : ℚ) : CompoundUnit ℚ :=
      ⟨[⟨⟨id, id, [], "celsius", factor, shift⟩, 1⟩]⟩
    let celsius := temperature "celsius" 1 0
    let fahrenheit := temperature "fahrenheit" (5 / 9) (-32)
    let kelvin := temperature "kelvin" 1 (-27315 / 100)
    (slow.isCompatible slow = true ∧ fast.isCompatible slow = true ∧
      slow.occurrences "second" (-1) = fast.occurrences "second" (-1)) ∧
    ∃ middle last, convert 20 celsius fahrenheit = .ok middle ∧
      convert middle fahrenheit kelvin = .ok last ∧ convert 20 celsius kelvin = .ok last ∧
      convert middle fahrenheit celsius = .ok 20 := by
  intro speed slow fast temperature celsius fahrenheit kelvin
  have defined : slow.Defined := List.forall_mem_cons.mpr ⟨by decide, List.forall_mem_cons.mpr
    ⟨by decide, nofun⟩⟩
  have compatible : slow.isCompatible fast = true := by
    rw [isCompatible_iff, canonical, canonical, List.mergeSort_of_pairwise (by decide),
      List.mergeSort_of_pairwise (by decide)]
    exact .cons (by decide) (.cons (by decide) .nil)
  have regular (id : String) {factor : ℚ} (shift : ℚ) (nonzero : factor ≠ 0) :
      Regular (temperature id factor shift).powers :=
    List.forall_mem_cons.mpr ⟨⟨rfl, nonzero⟩, nofun⟩
  have consistent {id other : String} (factor ratio shift offset : ℚ) (differs : id ≠ other) :
      Consistent (temperature id factor shift).powers (temperature other ratio offset).powers := by
    intro known inFirst also inSecond same
    rw [List.mem_singleton.mp inFirst, List.mem_singleton.mp inSecond] at same
    exact absurd same differs
  obtain ⟨floating, exact⟩ := conversions_fit
  obtain ⟨itself, symmetric, _, counted, _⟩ := floating slow fast slow
  refine ⟨⟨(itself defined).1, symmetric compatible, counted compatible _ _⟩, ?_⟩
  refine exact celsius fahrenheit kelvin ⟨regular _ _ one_ne_zero, regular _ _ (by norm_num),
    consistent _ _ _ _ (by decide), .inr rfl, by decide +kernel⟩ ⟨regular _ _ (by norm_num),
    regular _ _ one_ne_zero, consistent _ _ _ _ (by decide), .inr rfl, by decide +kernel⟩
    (consistent _ _ _ _ (by decide)) 20

end CompoundUnit

end UnitSheet
