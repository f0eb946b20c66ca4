/-
This file says what a product of quantities is made of.

Two units are joined family by family (`joinPower`): the power of a family that only one of them
has is kept, and where both have one the exponents are added in the unit of the first. The merge
looks at the first elements of two lists only, and in the strict order of the families these are
of one family exactly when that family is in both lists (`exists_joined`). The value is converted
once for every such family, in the order of the families.
-/

import UnitSheet.Proofs.Reduced

namespace UnitSheet

namespace CompoundUnit

/-! ### Powers by family -/

/-- The first power of a family. -/
def powerOf? (family : String) (powers : List (UnitPower Float)) : Option (UnitPower Float) :=
  powers.find? fun power => power.unit.family == family

theorem powerOf?_cons (family : String) (power : UnitPower Float)
    (powers : List (UnitPower Float)) : powerOf? family (power :: powers) =
      if power.unit.family = family then some power else powerOf? family powers := by
  simp only [powerOf?, List.find?_cons]
  split
  · rename_i same
    rw [if_pos (eq_of_beq same)]
  · rename_i differs
    rw [if_neg (ne_of_beq_false differs)]

theorem powerOf?_eq_none {family : String} {powers : List (UnitPower Float)}
    (other : ∀ power ∈ powers, power.unit.family ≠ family) : powerOf? family powers = none :=
  List.find?_eq_none.mpr fun power member equal => other power member (beq_iff_eq.mp equal)

/-- Where families differ, a power is found under its family. -/
theorem powerOf?_eq_some_iff {family : String} {power : UnitPower Float}
    {powers : List (UnitPower Float)} (apart : powers.Pairwise Apart) :
    powerOf? family powers = some power ↔ power ∈ powers ∧ power.unit.family = family := by
  induction powers with
  | nil => simp [powerOf?]
  | cons first powers inductionHypothesis =>
    obtain ⟨differs, apart⟩ := List.pairwise_cons.mp apart
    rw [powerOf?_cons, List.mem_cons]
    split
    · rename_i same
      constructor
      · rintro ⟨⟩
        exact ⟨.inl rfl, same⟩
      · rintro ⟨rfl | member, alike⟩
        · rfl
        · exact absurd (same.trans alike.symm) (differs power member)
    · rename_i other
      rw [inductionHypothesis apart]
      refine and_congr_left fun alike => ⟨.inr, fun member => member.resolve_left ?_⟩
      rintro rfl
      exact other alike

/-- The order of powers of different families does not matter. -/
theorem powerOf?_of_perm (family : String) {first second : List (UnitPower Float)}
    (apart : first.Pairwise Apart) (perm : first.Perm second) :
    powerOf? family second = powerOf? family first := by
  refine Option.ext fun power => ?_
  rw [powerOf?_eq_some_iff apart, powerOf?_eq_some_iff (apart_of_perm apart perm), perm.mem_iff]

/-! ### Joining two units -/

/-- The power of a family in a product, from the powers of this family in the operands. -/
def joinPower : Option (UnitPower Float) → Option (UnitPower Float) → Option (UnitPower Float)
  | none, right => right
  | left, none => left
  | some left, some right =>
    if left.exponent + right.exponent == 0 then none
    else some ⟨left.unit, left.exponent + right.exponent⟩

theorem joinPower_none (left : Option (UnitPower Float)) : joinPower left none = left := by
  cases left <;> rfl

/-- The powers above the division bar come first, and on each side symbols are in order. -/
def InOrder (powers : List (UnitPower Float)) : Prop :=
  powers.Pairwise fun earlier later => (earlier.exponent < 0 → later.exponent < 0) ∧
    ((earlier.exponent < 0 ↔ later.exponent < 0) → earlier.unit.symbol ≤ later.unit.symbol)

theorem inOrder_canonical (unit : CompoundUnit Float) : InOrder unit.canonical.powers := by
  refine (pairwise_writtenBefore unit).imp fun {earlier later} written => ?_
  have below (power : UnitPower Float) : power.isBelow = decide (power.exponent < 0) := rfl
  rw [UnitPower.writtenBefore, below, below] at written
  split at written
  · rename_i same
    exact ⟨(decide_eq_decide.mp same).mp, fun _ => of_decide_eq_true written⟩
  · rename_i differs
    exact ⟨fun _ => of_decide_eq_true written,
      fun same => absurd (decide_eq_decide.mpr same) differs⟩

/-- The pairs of powers of one family from two units, and the unit in which these are joined. -/
structure Joins (first second : CompoundUnit Float)
    (pairs : List (UnitPower Float × UnitPower Float)) (joined : CompoundUnit Float) : Prop where
  /-- Each family is there once. -/
  apart : joined.powers.Pairwise Apart
  power : ∀ family, powerOf? family joined.powers =
    joinPower (powerOf? family first.powers) (powerOf? family second.powers)
  inOrder : InOrder joined.powers
  paired : ∀ left right, (left, right) ∈ pairs ↔
    left ∈ first.powers ∧ right ∈ second.powers ∧ left.unit.family = right.unit.family
  /-- Each family is paired once, in the order of the families. -/
  ascending : pairs.Pairwise fun earlier later => earlier.1.unit.family < later.1.unit.family

/-- A value brought from the unit of the second power to that of the first, pair after pair. -/
def convertPairs (value : Float) (pairs : List (UnitPower Float × UnitPower Float)) :
    Except (ConversionError Float) Float :=
  pairs.foldlM (fun current (left, right) => right.unit.convert current left.unit right.exponent)
    value

theorem convertPairs_cons (value : Float) (left right : UnitPower Float)
    (pairs : List (UnitPower Float × UnitPower Float)) :
    convertPairs value ((left, right) :: pairs) =
      right.unit.convert value left.unit right.exponent >>= (convertPairs · pairs) := by
  rw [convertPairs, List.foldlM_cons]
  rfl

/-! ### Merging -/

/-- The powers of the first list with those of the same family in the second. -/
def shared (first second : List (UnitPower Float)) : List (UnitPower Float × UnitPower Float) :=
  first.filterMap fun left => (powerOf? left.unit.family second).map (left, ·)

theorem mem_shared_iff {first second : List (UnitPower Float)} (right : second.Pairwise Apart)
    {pair : UnitPower Float × UnitPower Float} : pair ∈ shared first second ↔
      pair.1 ∈ first ∧ pair.2 ∈ second ∧ pair.1.unit.family = pair.2.unit.family := by
  obtain ⟨left, other⟩ := pair
  simp only [shared, List.mem_filterMap, Option.map_eq_some_iff, powerOf?_eq_some_iff right,
    Prod.mk.injEq]
  constructor
  · rintro ⟨known, inFirst, also, ⟨inSecond, same⟩, rfl, rfl⟩
    exact ⟨inFirst, inSecond, same.symm⟩
  · rintro ⟨inFirst, inSecond, same⟩
    exact ⟨left, inFirst, other, ⟨inSecond, same.symm⟩, rfl, rfl⟩

theorem ascending_shared {first second : List (UnitPower Float)} (left : Ascending first) :
    (shared first second).Pairwise fun earlier later =>
      earlier.1.unit.family < later.1.unit.family := by
  refine List.pairwise_filterMap.mpr (left.imp ?_)
  rintro earlier later below pair fromEarlier other fromLater
  obtain ⟨_, _, rfl⟩ := Option.map_eq_some_iff.mp fromEarlier
  obtain ⟨_, _, rfl⟩ := Option.map_eq_some_iff.mp fromLater
  exact below

/-- A power of a family that comes before all those of the first list is paired with none. -/
theorem shared_cons_right {power : UnitPower Float} {first second : List (UnitPower Float)}
    (other : ∀ left ∈ first, power.unit.family ≠ left.unit.family) :
    shared first (power :: second) = shared first second := by
  refine List.filterMap_congr fun left member => ?_
  rw [powerOf?_cons, if_neg (other left member)]

theorem shared_cons_left {power : UnitPower Float} {first second : List (UnitPower Float)}
    (other : ∀ right ∈ second, right.unit.family ≠ power.unit.family) :
    shared (power :: first) second = shared first second := by
  rw [shared, List.filterMap_cons, powerOf?_eq_none other]
  rfl

theorem shared_cons_cons {left right : UnitPower Float} {first second : List (UnitPower Float)}
    (same : left.unit.family = right.unit.family)
    (other : ∀ later ∈ first, right.unit.family ≠ later.unit.family) :
    shared (left :: first) (right :: second) = (left, right) :: shared first second := by
  rw [shared, List.filterMap_cons, powerOf?_cons, if_pos same.symm]
  exact congrArg ((left, right) :: ·) (shared_cons_right other)

theorem shared_nil (first : List (UnitPower Float)) : shared first [] = [] :=
  List.filterMap_eq_nil_iff.mpr fun _ _ => rfl

theorem powerOf?_eq_none_of_lt {family : String} {powers : List (UnitPower Float)}
    (later : ∀ power ∈ powers, family < power.unit.family) : powerOf? family powers = none :=
  powerOf?_eq_none fun power member => (later power member).ne'

/-- Two powers of one family are joined before those of later families. -/
theorem powerOf?_joined {left right : UnitPower Float}
    {lefts rights joined : List (UnitPower Float)}
    (same : left.unit.family = right.unit.family)
    (inLefts : ∀ power ∈ lefts, left.unit.family < power.unit.family)
    (inRights : ∀ power ∈ rights, right.unit.family < power.unit.family)
    (power : ∀ family, powerOf? family joined =
      joinPower (powerOf? family lefts) (powerOf? family rights)) (family : String) :
    powerOf? family (if left.exponent + right.exponent == 0 then joined
        else ⟨left.unit, left.exponent + right.exponent⟩ :: joined) =
      joinPower (powerOf? family (left :: lefts)) (powerOf? family (right :: rights)) := by
  rw [powerOf?_cons, powerOf?_cons, ← same]
  by_cases here : left.unit.family = family
  · subst here
    rw [if_pos rfl, if_pos rfl, joinPower]
    split
    · rw [power, powerOf?_eq_none_of_lt inLefts, powerOf?_eq_none_of_lt (same ▸ inRights)]
      rfl
    · rw [powerOf?_cons, if_pos rfl]
  · rw [if_neg here, if_neg here, ← power]
    split
    · rfl
    · rw [powerOf?_cons, if_neg here]

/-- Joined powers are of families that come after whatever is before all those of the operands. -/
theorem lt_of_joined {family : String} {first second joined : List (UnitPower Float)}
    (inFirst : ∀ power ∈ first, family < power.unit.family)
    (inSecond : ∀ power ∈ second, family < power.unit.family) (ascending : Ascending joined)
    (power : ∀ family, powerOf? family joined =
      joinPower (powerOf? family first) (powerOf? family second)) :
    ∀ power ∈ joined, family < power.unit.family := by
  intro known member
  refine Classical.byContradiction fun notLater => ?_
  have found : powerOf? known.unit.family joined = some known :=
    (powerOf?_eq_some_iff (ascending.imp ne_of_lt)).mpr ⟨member, rfl⟩
  have other {powers : List (UnitPower Float)}
      (later : ∀ power ∈ powers, family < power.unit.family) :
      powerOf? known.unit.family powers = none :=
    powerOf?_eq_none fun power member same => notLater (same ▸ later power member)
  rw [power, other inFirst, other inSecond] at found
  cases found

/-- Merging powers in the order of their families converts the value for each family that both
lists have, and joins the powers of each family. -/
theorem exists_joined {first second : List (UnitPower Float)} (left : Ascending first)
    (right : Ascending second) : ∃ joined, Ascending joined ∧
      (∀ family, powerOf? family joined =
        joinPower (powerOf? family first) (powerOf? family second)) ∧
      ∀ value, mergePowers value first second =
        (convertPairs value (shared first second)).map (·, joined) := by
  -- The value changes along the merge, but the powers do not depend on it.
  induction (0 : Float), first, second using mergePowers.induct with
  | case1 _ second =>
    refine ⟨second, right, fun family => rfl, fun value => ?_⟩
    rw [mergePowers]
    rfl
  | case2 _ first nonempty =>
    refine ⟨first, left, fun family => (joinPower_none _).symm, fun value => ?_⟩
    rw [mergePowers, shared_nil]
    · rfl
    · exact nonempty
  | case3 _ head lefts other rights same inductionHypothesis =>
    obtain ⟨inLefts, left⟩ := List.pairwise_cons.mp left
    obtain ⟨inRights, right⟩ := List.pairwise_cons.mp right
    obtain ⟨joined, ascending, power, merged⟩ := inductionHypothesis 0 left right
    have family : head.unit.family = other.unit.family := eq_of_beq same
    refine ⟨_, ?_, powerOf?_joined family inLefts inRights power, fun value => ?_⟩
    · have later := lt_of_joined inLefts (family ▸ inRights) ascending power
      split
      · exact ascending
      · exact List.pairwise_cons.mpr ⟨later, ascending⟩
    · rw [mergePowers, if_pos same, shared_cons_cons family fun later member =>
        (family ▸ inLefts later member).ne, convertPairs_cons]
      cases other.unit.convert value head.unit other.exponent with
      | error cause => rfl
      | ok converted =>
        show (mergePowers converted lefts rights >>= _) = (convertPairs converted _).map _
        rw [merged]
        cases convertPairs converted (shared lefts rights) <;> rfl
  | case4 _ head lefts other rights differs before inductionHypothesis =>
    obtain ⟨inLefts, left⟩ := List.pairwise_cons.mp left
    have inRights : ∀ power ∈ other :: rights, head.unit.family < power.unit.family :=
      List.forall_mem_cons.mpr ⟨before, fun power member =>
        lt_trans before ((List.pairwise_cons.mp right).1 power member)⟩
    obtain ⟨joined, ascending, power, merged⟩ := inductionHypothesis left right
    refine ⟨head :: joined, ?_, fun family => ?_, fun value => ?_⟩
    · exact List.pairwise_cons.mpr ⟨lt_of_joined inLefts inRights ascending power, ascending⟩
    · rw [powerOf?_cons, powerOf?_cons]
      split
      · rename_i same
        rw [powerOf?_eq_none_of_lt (same ▸ inRights)]
        rfl
      · exact power family
    · rw [mergePowers, if_neg differs, if_pos before, merged,
        shared_cons_left fun right member => (inRights right member).ne']
      cases convertPairs value (shared lefts (other :: rights)) <;> rfl
  | case5 _ head lefts other rights differs notBefore inductionHypothesis =>
    obtain ⟨inRights, right⟩ := List.pairwise_cons.mp right
    have before : other.unit.family < head.unit.family := by
      refine lt_of_le_of_ne (le_of_not_gt notBefore) fun same => differs ?_
      exact beq_iff_eq.mpr same.symm
    have inLefts : ∀ power ∈ head :: lefts, other.unit.family < power.unit.family :=
      List.forall_mem_cons.mpr ⟨before, fun power member =>
        lt_trans before ((List.pairwise_cons.mp left).1 power member)⟩
    obtain ⟨joined, ascending, power, merged⟩ := inductionHypothesis left right
    refine ⟨other :: joined, ?_, fun family => ?_, fun value => ?_⟩
    · exact List.pairwise_cons.mpr ⟨lt_of_joined inLefts inRights ascending power, ascending⟩
    · rw [powerOf?_cons family other, powerOf?_cons family other]
      split
      · rename_i same
        rw [powerOf?_eq_none_of_lt (same ▸ inLefts)]
        rfl
      · exact power family
    · rw [mergePowers, if_neg differs, if_neg notBefore, merged,
        shared_cons_right fun left member => (inLefts left member).ne]
      cases convertPairs value (shared (head :: lefts) rights) <;> rfl

end CompoundUnit

namespace Quantity

open CompoundUnit

variable {first second : Quantity Float}

/-- A product is the product of the values, converted for each family that both units have, in the
unit in which the two are joined. -/
theorem exists_multiply_joins (left : first.unit.powers.Pairwise Apart)
    (right : second.unit.powers.Pairwise Apart) : ∃ pairs unit,
      Joins first.unit second.unit pairs unit ∧ first.multiply second =
        (convertPairs (first.value * second.value) pairs).map (Quantity.mk · unit) := by
  have ofFirst : first.unit.byFamily.Perm first.unit.powers := List.mergeSort_perm _ _
  have ofSecond : second.unit.byFamily.Perm second.unit.powers := List.mergeSort_perm _ _
  obtain ⟨joined, ascending, power, merged⟩ :=
    exists_joined (ascending_byFamily left) (ascending_byFamily right)
  have canonical : (canonical ⟨joined⟩).powers.Perm joined := List.mergeSort_perm _ _
  have apart : joined.Pairwise Apart := ascending.imp ne_of_lt
  refine ⟨shared first.unit.byFamily second.unit.byFamily, CompoundUnit.canonical ⟨joined⟩,
    ⟨apart_of_perm apart canonical.symm, fun family => ?_, inOrder_canonical _,
      fun earlier later => ?_, ascending_shared (ascending_byFamily left)⟩, ?_⟩
  · rw [powerOf?_of_perm family apart canonical.symm, power,
      powerOf?_of_perm family left ofFirst.symm, powerOf?_of_perm family right ofSecond.symm]
  · rw [mem_shared_iff (apart_of_perm right ofSecond.symm), ofFirst.mem_iff, ofSecond.mem_iff]
  · rw [multiply, merged]
    cases convertPairs (first.value * second.value) _ <;> rfl

/-- A product is made family by family: the unit of a family that one operand has alone is kept;
exponents in a family that both have are added in the unit of the first, and a sum of zero is left
out. The value is the product of the values, brought from the units of the second operand to those
of the first for each family that both have, in the order of the families; there is no product
exactly if one of these conversions fails. A quotient is the product with the reciprocal value and
the inverse unit, and there is none by a value of zero. -/
theorem product_by_family (left : first.unit.powers.Pairwise Apart)
    (right : second.unit.powers.Pairwise Apart) :
    (∃ pairs unit, Joins first.unit second.unit pairs unit ∧ first.multiply second =
      (convertPairs (first.value * second.value) pairs).map (Quantity.mk · unit)) ∧
    ((second.value == 0) = true → first.divide second = .error (.arithmetic .zeroDivisor)) ∧
    ((second.value == 0) = false → ∃ pairs unit,
      Joins first.unit (second.unit.power (-1)) pairs unit ∧ first.divide second =
        (convertPairs (first.value * (1 / second.value)) pairs).map (Quantity.mk · unit)) := by
  refine ⟨exists_multiply_joins left right, fun zero => if_pos zero, fun nonzero => ?_⟩
  have inverse : (Quantity.mk (1 / second.value) (second.unit.power (-1))).unit.powers.Pairwise
      Apart := apart_power right (-1)
  have reciprocal : Floating.divide 1 second.value = .ok (1 / second.value) := by
    rw [Floating.divide, if_neg (Bool.eq_false_iff.mp nonzero)]
  have divided : first.divide second =
      first.multiply ⟨1 / second.value, second.unit.power (-1)⟩ := by
    have divisor : ¬ (second.value == Scalar.zero) = true := Bool.eq_false_iff.mp nonzero
    rw [divide, if_neg divisor]
    show ((Floating.divide 1 second.value).mapError _ >>= _) = _
    rw [reciprocal]
    rfl
  rw [divided]
  exact exists_multiply_joins left inverse

/-- A speed times metres and seconds: the seconds cancel. -/
theorem product_by_family_of_speed :
    let metre : NamedUnit Float := .custom "m"
    let second : NamedUnit Float := .custom "s"
    let speed : Quantity Float := ⟨2, ⟨[⟨metre, 1⟩, ⟨second, -1⟩]⟩⟩
    let other : Quantity Float := ⟨3, ⟨[⟨second, 1⟩, ⟨metre, 2⟩, ⟨.custom "kg", -1⟩]⟩⟩
    ∃ pairs unit, Joins speed.unit other.unit pairs unit ∧
      powerOf? "m" unit.powers = some ⟨metre, 3⟩ ∧ powerOf? "s" unit.powers = none ∧
      speed.multiply other = (convertPairs 6 pairs).map (Quantity.mk · unit) := by
  intro metre second speed other
  have left : speed.unit.powers.Pairwise Apart := by
    simp [speed, metre, second, Apart, NamedUnit.custom]
  have right : other.unit.powers.Pairwise Apart := by
    simp [other, metre, second, Apart, NamedUnit.custom]
  obtain ⟨⟨pairs, unit, joins, multiplied⟩, _⟩ := product_by_family left right
  refine ⟨pairs, unit, joins, ?_, ?_, ?_⟩
  · have sum : joinPower (some ⟨metre, 1⟩) (some ⟨metre, 2⟩) = some ⟨metre, 3⟩ := by
      rw [joinPower, if_neg (by decide +kernel), show (1 : Float) + 2 = 3 by decide +kernel]
    exact (joins.power "m").trans sum
  · have cancels : joinPower (some ⟨second, -1⟩) (some ⟨second, 1⟩) = none := by
      rw [joinPower, if_pos (by decide +kernel)]
    exact (joins.power "s").trans cancels
  · rw [multiplied, show speed.value * other.value = 6 by decide +kernel]

end Quantity

end UnitSheet
