/-
This file says that every unit of a worksheet is reduced.

A unit is reduced when it has one power of each family at most and no power with the exponent
zero. Two lists of powers are merged by looking at their first elements only, which is right for
lists in the strict order of their families, and merging leads to such a list again
(`ascending_mergePowers`). A bracket, a power and a product are therefore reduced whatever the
numbers in them, and whatever evaluation makes of reduced units is reduced as well
(`tame_reduced`). No line ever has another unit, and neither do the products, quotients and powers
of the units of lines.
-/

import UnitSheet.Proofs.Rates
import UnitSheet.Proofs.Settled

namespace UnitSheet

namespace CompoundUnit

/-- The units of two powers are of different families. -/
def Apart (first second : UnitPower Float) : Prop :=
  first.unit.family ≠ second.unit.family

/-- There is one power of each family at most, and no exponent is zero. -/
structure Reduced (unit : CompoundUnit Float) : Prop where
  apart : unit.powers.Pairwise Apart
  nonzero : ∀ power ∈ unit.powers, (power.exponent == 0) = false

/-- The powers stand in the order of their families, each of which is there once. -/
def Ascending (powers : List (UnitPower Float)) : Prop :=
  powers.Pairwise fun first second => first.unit.family < second.unit.family

variable {unit : CompoundUnit Float}

theorem reduced_empty : empty.Reduced :=
  ⟨List.Pairwise.nil, fun _ member => absurd member List.not_mem_nil⟩

theorem apart_of_perm {first second : List (UnitPower Float)} (apart : first.Pairwise Apart)
    (perm : first.Perm second) : second.Pairwise Apart :=
  (perm.pairwise_iff fun differs => Ne.symm differs).mp apart

/-- The order of the powers does not matter. -/
theorem Reduced.perm {first second : List (UnitPower Float)} (reduced : Reduced ⟨first⟩)
    (perm : first.Perm second) : Reduced ⟨second⟩ where
  apart := apart_of_perm reduced.apart perm
  nonzero := fun power member => reduced.nonzero power (perm.mem_iff.mpr member)

theorem Reduced.canonical (reduced : unit.Reduced) : unit.canonical.Reduced :=
  Reduced.perm reduced (List.mergeSort_perm _ _).symm

/-- The powers of a unit that is raised are of the same families. -/
theorem apart_power (apart : unit.powers.Pairwise Apart) (exponent : Float) :
    (unit.power exponent).powers.Pairwise Apart := by
  refine List.pairwise_filterMap.mpr (apart.imp ?_)
  intro first second differs raised fromFirst other fromSecond
  rw [Apart, (eq_raised fromFirst).1, (eq_raised fromSecond).1]
  exact differs

theorem Reduced.power (reduced : unit.Reduced) (exponent : Float) :
    (unit.power exponent).Reduced := by
  constructor
  · exact apart_power reduced.apart exponent
  · intro raised member
    obtain ⟨_, _, _, nonzero⟩ := mem_power member
    exact nonzero

/-! ### Orders -/

theorem pairwise_writtenBefore (unit : CompoundUnit Float) : unit.canonical.powers.Pairwise
    fun first second => UnitPower.writtenBefore first second = true := by
  refine List.pairwise_mergeSort (fun first second third => ?_) (fun first second => ?_) _
  · unfold UnitPower.writtenBefore
    cases first.isBelow <;> cases second.isBelow <;> cases third.isBelow <;> simp
    all_goals exact String.le_trans
  · unfold UnitPower.writtenBefore
    cases first.isBelow <;> cases second.isBelow <;> simp
    all_goals exact String.le_total _ _

/-- Powers of different families can be put in strict order. -/
theorem ascending_byFamily (apart : unit.powers.Pairwise Apart) : Ascending unit.byFamily := by
  have sorted : unit.byFamily.Pairwise fun first second =>
      decide (first.unit.family ≤ second.unit.family) = true := by
    refine List.pairwise_mergeSort (fun first second third => ?_) (fun first second => ?_) _
    · simp only [decide_eq_true_eq]
      exact String.le_trans
    · simp only [Bool.or_eq_true, decide_eq_true_eq]
      exact String.le_total _ _
  have apart : unit.byFamily.Pairwise Apart :=
    apart_of_perm apart (List.mergeSort_perm unit.powers _).symm
  refine (sorted.and apart).imp fun {first second} both => ?_
  exact lt_of_le_of_ne (of_decide_eq_true both.1) both.2

/-! ### Products -/

theorem lt_of_mergePowers {value : Float} {first second : List (UnitPower Float)}
    {merged : Float × List (UnitPower Float)} {family : String}
    (left : ∀ power ∈ first, family < power.unit.family)
    (right : ∀ power ∈ second, family < power.unit.family)
    (equal : mergePowers value first second = .ok merged) :
    ∀ power ∈ merged.2, family < power.unit.family :=
  @over_mergePowers (fun unit => family < unit.family) value first second merged left right equal

/-- Merging keeps the order of the families. -/
theorem ascending_mergePowers {value : Float} {first second : List (UnitPower Float)}
    {merged : Float × List (UnitPower Float)} (left : Ascending first) (right : Ascending second)
    (equal : mergePowers value first second = .ok merged) : Ascending merged.2 := by
  induction value, first, second using mergePowers.induct generalizing merged with
  | case1 value second =>
    rw [mergePowers] at equal
    cases equal
    exact right
  | case2 value first nonempty =>
    rw [mergePowers] at equal
    · cases equal
      exact left
    · exact nonempty
  | case3 value head lefts other rights same inductionHypothesis =>
    obtain ⟨belowLefts, left⟩ := List.pairwise_cons.mp left
    obtain ⟨belowRights, right⟩ := List.pairwise_cons.mp right
    rw [mergePowers, if_pos same] at equal
    obtain ⟨converted, _, equal⟩ := bind_eq_ok.mp equal
    obtain ⟨⟨product, rest⟩, mergedRest, equal⟩ := bind_eq_ok.mp equal
    cases equal
    have ascending := inductionHypothesis converted left right mergedRest
    have family : head.unit.family = other.unit.family := eq_of_beq same
    -- The families after the two first ones, which are the same, come later on both sides.
    have below : ∀ power ∈ rest, head.unit.family < power.unit.family :=
      lt_of_mergePowers belowLefts (family ▸ belowRights) mergedRest
    dsimp only
    split
    · exact ascending
    · exact List.pairwise_cons.mpr ⟨below, ascending⟩
  | case4 value head lefts other rights differs before inductionHypothesis =>
    obtain ⟨belowLefts, left⟩ := List.pairwise_cons.mp left
    rw [mergePowers, if_neg differs, if_pos before] at equal
    obtain ⟨⟨product, rest⟩, mergedRest, equal⟩ := bind_eq_ok.mp equal
    cases equal
    have inRights : ∀ power ∈ other :: rights, head.unit.family < power.unit.family :=
      List.forall_mem_cons.mpr ⟨before, fun power member =>
        lt_trans before ((List.pairwise_cons.mp right).1 power member)⟩
    have below := lt_of_mergePowers belowLefts inRights mergedRest
    exact List.pairwise_cons.mpr ⟨below, inductionHypothesis left right mergedRest⟩
  | case5 value head lefts other rights differs notBefore inductionHypothesis =>
    obtain ⟨belowRights, right⟩ := List.pairwise_cons.mp right
    rw [mergePowers, if_neg differs, if_neg notBefore] at equal
    obtain ⟨⟨product, rest⟩, mergedRest, equal⟩ := bind_eq_ok.mp equal
    cases equal
    have before : other.unit.family < head.unit.family := by
      refine lt_of_le_of_ne (le_of_not_gt notBefore) fun same => differs ?_
      exact beq_iff_eq.mpr same.symm
    have inLefts : ∀ power ∈ head :: lefts, other.unit.family < power.unit.family :=
      List.forall_mem_cons.mpr ⟨before, fun power member =>
        lt_trans before ((List.pairwise_cons.mp left).1 power member)⟩
    have below := lt_of_mergePowers inLefts belowRights mergedRest
    exact List.pairwise_cons.mpr ⟨below, inductionHypothesis left right mergedRest⟩

/-- A product of quantities in reduced units is in a reduced unit. -/
theorem reduced_multiply {first second product : Quantity Float} (left : first.unit.Reduced)
    (right : second.unit.Reduced) (equal : first.multiply second = .ok product) :
    product.unit.Reduced := by
  obtain ⟨⟨value, powers⟩, merged, equal⟩ := bind_eq_ok.mp equal
  cases equal
  refine Reduced.canonical ⟨?_, fun power member => ?_⟩
  · have ascending := ascending_mergePowers (ascending_byFamily left.apart)
      (ascending_byFamily right.apart) merged
    exact ascending.imp ne_of_lt
  · rcases merged_of_mergePowers merged power member with
      inFirst | inSecond | ⟨_, _, _, nonzero⟩
    · exact left.nonzero power (List.mem_mergeSort.mp inFirst)
    · exact right.nonzero power (List.mem_mergeSort.mp inSecond)
    · exact nonzero

theorem reduced_divide {first second quotient : Quantity Float} (left : first.unit.Reduced)
    (right : second.unit.Reduced) (equal : first.divide second = .ok quotient) :
    quotient.unit.Reduced := by
  rw [Quantity.divide] at equal
  split at equal
  · cases equal
  · obtain ⟨reciprocal, _, equal⟩ := bind_eq_ok.mp equal
    exact reduced_multiply left (right.power _) equal

/-! ### Brackets -/

/-- A power that is put to others of different families leaves the families different. -/
theorem apart_mergePower {power : UnitPower Float} {powers merged : List (UnitPower Float)}
    (apart : powers.Pairwise Apart) (equal : mergePower power powers = .ok merged) :
    merged.Pairwise Apart := by
  induction powers generalizing merged with
  | nil =>
    cases equal
    exact List.pairwise_singleton _ _
  | cons known rest inductionHypothesis =>
    obtain ⟨atKnown, apart⟩ := List.pairwise_cons.mp apart
    rw [mergePower] at equal
    split at equal
    · rename_i same
      split at equal
      · cases equal
        have family : known.unit.family = power.unit.family := eq_of_beq same
        refine List.pairwise_cons.mpr ⟨fun other member => ?_, apart⟩
        exact fun alike => atKnown other member (family.trans alike)
      · cases equal
    · rename_i differs
      obtain ⟨others, mergedRest, equal⟩ := bind_eq_ok.mp equal
      cases equal
      have new : known.unit.family ≠ power.unit.family := fun same => differs (beq_iff_eq.mpr same)
      have each := @over_mergePower (fun unit => known.unit.family ≠ unit.family) power rest others
        new atKnown mergedRest
      exact List.pairwise_cons.mpr ⟨each, inductionHypothesis apart mergedRest⟩

theorem apart_foldlM_mergePower {powers before merged : List (UnitPower Float)}
    (apart : before.Pairwise Apart)
    (equal : powers.foldlM (fun families power => mergePower power families) before =
      .ok merged) : merged.Pairwise Apart := by
  induction powers generalizing before with
  | nil =>
    cases equal
    exact apart
  | cons power rest inductionHypothesis =>
    rw [List.foldlM_cons] at equal
    obtain ⟨next, mergedPower, equal⟩ := bind_eq_ok.mp equal
    exact inductionHypothesis (apart_mergePower apart mergedPower) equal

/-- The unit of a bracket is reduced, whatever is written in it. -/
theorem reduced_ofAtoms {atoms : List UnitAtom} (equal : ofAtoms atoms = .ok unit) :
    unit.Reduced := by
  obtain ⟨powers, _, equal⟩ := bind_eq_ok.mp equal
  obtain ⟨merged, folded, equal⟩ := bind_eq_ok.mp equal
  cases equal
  have apart := apart_foldlM_mergePower List.Pairwise.nil folded
  refine Reduced.canonical ⟨apart.filter _, fun power member => ?_⟩
  have kept := (List.mem_filter.mp member).2
  rw [Bool.not_eq_true'] at kept
  exact kept

end CompoundUnit

open CompoundUnit (Reduced)

/-- The units that a group can be given are reduced. -/
theorem Catalog.HasUnit.reduced {catalog : Catalog} {unit : CompoundUnit Float}
    (known : catalog.HasUnit unit) : unit.Reduced := by
  rcases known with rfl | ⟨_, _, _, equal⟩
  · exact CompoundUnit.reduced_empty
  · exact CompoundUnit.reduced_ofAtoms equal

/-! ### Evaluation -/

/-- Evaluation makes reduced units out of reduced units. -/
theorem tame_reduced : Tame Reduced (fun _ => True) where
  empty := CompoundUnit.reduced_empty
  power := fun _ exponent reduced => reduced.power exponent
  product := fun _ _ _ => CompoundUnit.reduced_multiply
  unmultiplied := fun _ _ _ _ _ _ => trivial
  unconverted := fun _ _ _ _ _ _ => trivial
  angle := fun _ _ _ => trivial
  arithmetic := fun _ _ => trivial
  other := fun _ _ _ => trivial
  reference := fun _ _ _ => trivial

namespace Sheet

/-- What can be known of the lines of a worksheet: any of its lines have been evaluated, in any
order and any number of times. -/
def Reaches (sheet : Sheet) (outcomes : List Outcome) : Prop :=
  ∃ indices : List Nat, indices.foldlM sheet.evaluateLine sheet.unevaluated = .ok outcomes

/-- All lines that have a value have it in a reduced unit. -/
structure AllReduced (sheet : Sheet) (outcomes : List Outcome) : Prop where
  length : outcomes.length = sheet.lines.length
  reduced : ∀ quantity, .ok quantity ∈ outcomes → quantity.unit.Reduced

variable {catalog : Catalog} {source : String} {sheet : Sheet} {outcomes : List Outcome}

theorem allReduced_unevaluated (sheet : Sheet) : sheet.AllReduced sheet.unevaluated where
  length := List.length_map _
  reduced := by
    intro quantity member
    obtain ⟨line, _, equal⟩ := List.mem_map.mp member
    unfold Line.unevaluated at equal
    split at equal
    · cases equal
    · cases equal
      exact CompoundUnit.reduced_empty

/-- Every part of a line has a value in a reduced unit if it has one. -/
theorem AllReduced.evaluate_node (known : sheet.AllReduced outcomes)
    (compiled : compile catalog source = .ok sheet) {line : Line} (member : line ∈ sheet.lines)
    {tree node : Node} (equal : line.tree = .ok tree) (within : Node.Within node tree)
    {quantity : Quantity Float}
    (evaluated : node.evaluate (sheet.meaning outcomes) = .ok quantity) :
    quantity.unit.Reduced := by
  have linked := linked_of_compile compiled
  cases blank : line.isBlank with
  | true =>
    rw [eq_blank_of_compile compiled member blank equal] at within
    rw [Node.eq_blank_of_within within] at evaluated
    cases evaluated
  | false =>
    have expression := (linked.expression line member blank tree equal).of_within within
    have names : ∀ name, sheet.Refers line name → Evaluated.Yields (Quantity.InUnit Reduced)
        (fun _ => True) (sheet.meaning outcomes name) := by
      rintro name ⟨index, _, stands⟩
      refine linked.yields_meaning tame_reduced known.length stands fun value found => ?_
      exact known.reduced value (List.mem_of_getElem? found)
    have yields := expression.yields_evaluate tame_reduced.toConfined
      (fun _ given => given.reduced) names
    rw [evaluated] at yields
    exact yields

/-- Evaluating one line leaves the units of all lines reduced. -/
theorem AllReduced.step (known : sheet.AllReduced outcomes)
    (compiled : compile catalog source = .ok sheet) {index : Nat} {next : List Outcome}
    (evaluated : sheet.evaluateLine outcomes index = .ok next) : sheet.AllReduced next := by
  unfold evaluateLine at evaluated
  split at evaluated
  · rename_i line _ found _
    split at evaluated
    · rename_i tree equal
      split at evaluated
      · cases evaluated
        exact known
      · obtain ⟨outcome, given, evaluated⟩ := bind_eq_ok.mp evaluated
        cases evaluated
        refine ⟨List.length_set.trans known.length, fun quantity member => ?_⟩
        rcases List.mem_or_eq_of_mem_set member with earlier | rfl
        · exact known.reduced quantity earlier
        · refine known.evaluate_node compiled (List.mem_of_getElem? found) equal .here ?_
          unfold outcomeOf at given
          split at given
          · rename_i value result
            cases given
            exact result
          · cases given
          · cases given
    · cases evaluated
      exact known
  · cases evaluated
    exact known

/-- Evaluating lines in any order leaves the units of all lines reduced. -/
theorem AllReduced.run (compiled : compile catalog source = .ok sheet) {indices : List Nat}
    {last : List Outcome} (known : sheet.AllReduced outcomes)
    (evaluated : indices.foldlM sheet.evaluateLine outcomes = .ok last) :
    sheet.AllReduced last := by
  induction indices generalizing outcomes with
  | nil =>
    cases evaluated
    exact known
  | cons index rest inductionHypothesis =>
    rw [List.foldlM_cons] at evaluated
    obtain ⟨next, atLine, evaluated⟩ := bind_eq_ok.mp evaluated
    exact inductionHypothesis (known.step compiled atLine) evaluated

theorem Reaches.allReduced (compiled : compile catalog source = .ok sheet)
    (reached : sheet.Reaches outcomes) : sheet.AllReduced outcomes := by
  obtain ⟨indices, evaluated⟩ := reached
  exact (allReduced_unevaluated sheet).run compiled evaluated

end Sheet

/-! ### Every unit that is met -/

/-- A unit is met when some document is evaluated: it is that of the value of a part of a line, or
that which a line has. -/
inductive CompoundUnit.Met : CompoundUnit Float → Prop
  | node {catalog : Catalog} {source : String} {sheet : Sheet} {outcomes : List Outcome}
      {line : Sheet.Line} {tree node : Node} {quantity : Quantity Float} :
      Sheet.compile catalog source = .ok sheet → sheet.Reaches outcomes → line ∈ sheet.lines →
      line.tree = .ok tree → Node.Within node tree →
      node.evaluate (sheet.meaning outcomes) = .ok quantity → Met quantity.unit
  | line {catalog : Catalog} {source : String} {sheet : Sheet} {outcomes : List Outcome}
      {quantity : Quantity Float} :
      Sheet.compile catalog source = .ok sheet → sheet.Reaches outcomes →
      .ok quantity ∈ outcomes → Met quantity.unit

/-- The quantities that products, quotients and powers make out of values in units that are met. -/
inductive Quantity.Combined : Quantity Float → Prop
  | met {unit : CompoundUnit Float} (value : Float) : unit.Met → Combined ⟨value, unit⟩
  | multiply {first second product : Quantity Float} : Combined first → Combined second →
      first.multiply second = .ok product → Combined product
  | divide {first second quotient : Quantity Float} : Combined first → Combined second →
      first.divide second = .ok quotient → Combined quotient
  | power {quantity : Quantity Float} (value exponent : Float) : Combined quantity →
      Combined ⟨value, quantity.unit.power exponent⟩

theorem CompoundUnit.Met.reduced {unit : CompoundUnit Float} (met : unit.Met) : unit.Reduced := by
  cases met with
  | node compiled reached member equal within evaluated =>
    exact (reached.allReduced compiled).evaluate_node compiled member equal within evaluated
  | line compiled reached member => exact (reached.allReduced compiled).reduced _ member

/-- In every run of every document, a unit that evaluation leads to has one power of each family at
most and none with the exponent zero, and so has every unit that products, quotients and powers make
out of such units. -/
theorem Quantity.reduced_of_combined {quantity : Quantity Float} (combined : quantity.Combined) :
    quantity.unit.Reduced := by
  induction combined with
  | met value met => exact met.reduced
  | multiply _ _ equal left right => exact CompoundUnit.reduced_multiply left right equal
  | divide _ _ equal left right => exact CompoundUnit.reduced_divide left right equal
  | power value exponent _ reduced => exact reduced.power exponent

/-- The side of a square is in a reduced unit: that of its area is met on a line. -/
theorem Quantity.reduced_of_area : ∃ unit : CompoundUnit Float, unit.Met ∧
    (unit.power 0.5).powers.map (fun power => power.unit.id) = ["meter"] ∧
    (unit.power 0.5).Reduced := by
  obtain ⟨draft, area⟩ : ∃ draft : Draft, draft = ⟨none, [⟨.number, "9"⟩, ⟨.bracket, "["⟩,
    ⟨.literal, "m"⟩, ⟨.operator, "^"⟩, ⟨.number, "2"⟩, ⟨.bracket, "]"⟩], [⟨.number, "9"⟩,
    ⟨.whitespace, " "⟩, ⟨.bracket, "["⟩, ⟨.literal, "m"⟩, ⟨.operator, "^"⟩, ⟨.number, "2"⟩,
    ⟨.bracket, "]"⟩], none⟩ := ⟨_, rfl⟩
  obtain ⟨sheet, made⟩ : ∃ sheet, sheet = Sheet.ofDrafts Catalog.builtin [draft] := ⟨_, rfl⟩
  have drafts : (Text.sheetLines "9 [m^2]").map Draft.ofText = [draft] := by
    subst area
    cbv
  have acyclic : sheet.dependencies.isCyclic = false := by
    rw [made, Sheet.dependencies_ofDrafts, area]
    cbv
  have compiled : Sheet.compile Catalog.builtin "9 [m^2]" = .ok sheet :=
    Sheet.compile_eq_ok_iff.mpr ⟨drafts ▸ made, acyclic⟩
  have computed : ((Node.ofLine ⟨[], Catalog.builtin⟩ draft.tokens).toOption.bind fun tree =>
      (tree.evaluate (sheet.meaning sheet.unevaluated)).toOption.map fun quantity =>
        (quantity.unit.power 0.5).powers.map fun power => power.unit.id) = some ["meter"] := by
    subst made area
    decide +kernel
  obtain ⟨tree, read, computed⟩ := Option.bind_eq_some_iff.mp computed
  obtain ⟨quantity, evaluated, ids⟩ := Option.map_eq_some_iff.mp computed
  have atLine : (Sheet.Line.ofDraft Catalog.builtin (Draft.declarations [draft]) draft).tree =
      .ok tree := by
    have names : (Draft.declarations [draft]).keys = [] := by rw [area]; rfl
    have readable : draft.unreadable = none := by rw [area]
    simp only [Sheet.Line.ofDraft, names, readable, toOption_eq_some_iff.mp read]
    rfl
  have met : quantity.unit.Met :=
    .node compiled ⟨[], rfl⟩ (made ▸ List.mem_singleton_self _) atLine .here
      (toOption_eq_some_iff.mp evaluated)
  exact ⟨quantity.unit, met, ids, reduced_of_combined (.power 3 0.5 (.met 9 met))⟩

end UnitSheet
