/-
This file says what the powers of a bracket are merged into.

Powers are merged one after the other, each into the power of its family that is there already.
Looked up by family, one more power changes the entry of its family alone
(`exponentOf?_mergePower`), so the exponents of a family are added in the order in which they
stand (`exponentOf?_of_merged`). Merging fails exactly where two powers of one family are of
different units (`exists_merged_iff`).
-/

import UnitSheet.Proofs.Products

namespace UnitSheet

namespace CompoundUnit

/-! ### Sums -/

/-- The sum of numbers, added from the left; of no numbers there is none. -/
def inOrderSum : List Float → Option Float
  | [] => none
  | first :: rest => some (rest.foldl (· + ·) first)

/-- A sum with one more number. -/
def addTo (sum : Option Float) (number : Float) : Float :=
  (sum.map (· + number)).getD number

theorem inOrderSum_concat (numbers : List Float) (number : Float) :
    inOrderSum (numbers ++ [number]) = some (addTo (inOrderSum numbers) number) := by
  cases numbers with
  | nil => rfl
  | cons first rest =>
    show some (List.foldl (· + ·) first (rest ++ [number])) = _
    rw [List.foldl_append]
    rfl

theorem inOrderSum_eq_none {numbers : List Float} : inOrderSum numbers = none ↔ numbers = [] := by
  cases numbers <;> simp [inOrderSum]

/-- The exponents of a family, in the order of the powers. -/
def exponentsOf (family : String) (powers : List (UnitPower Float)) : List Float :=
  (powers.filter fun power => power.unit.family == family).map UnitPower.exponent

theorem exponentsOf_append (family : String) (first second : List (UnitPower Float)) :
    exponentsOf family (first ++ second) =
      exponentsOf family first ++ exponentsOf family second := by
  rw [exponentsOf, List.filter_append, List.map_append]
  rfl

theorem exponentsOf_singleton (family : String) (power : UnitPower Float) :
    exponentsOf family [power] = if power.unit.family = family then [power.exponent] else [] := by
  by_cases same : power.unit.family = family
  · simp [exponentsOf, same]
  · simp [exponentsOf, same]

theorem exponentsOf_eq_nil {family : String} {powers : List (UnitPower Float)} :
    exponentsOf family powers = [] ↔ ∀ power ∈ powers, power.unit.family ≠ family := by
  simp [exponentsOf, List.filter_eq_nil_iff]

/-! ### One more power -/

/-- The exponent of a family. -/
def exponentOf? (family : String) (powers : List (UnitPower Float)) : Option Float :=
  (powerOf? family powers).map UnitPower.exponent

theorem exponentOf?_cons (family : String) (power : UnitPower Float)
    (powers : List (UnitPower Float)) : exponentOf? family (power :: powers) =
      if power.unit.family = family then some power.exponent else exponentOf? family powers := by
  rw [exponentOf?, powerOf?_cons]
  split <;> rfl

variable {power : UnitPower Float} {powers families merged : List (UnitPower Float)}

/-- One more power adds its exponent to that of its family. -/
theorem exponentOf?_mergePower (equal : mergePower power families = .ok merged)
    (family : String) : exponentOf? family merged =
      if power.unit.family = family then some (addTo (exponentOf? family families) power.exponent)
      else exponentOf? family families := by
  induction families generalizing merged with
  | nil =>
    cases equal
    exact exponentOf?_cons family power []
  | cons known rest inductionHypothesis =>
    rw [mergePower] at equal
    split at equal
    · rename_i alike
      have same : known.unit.family = power.unit.family := eq_of_beq alike
      split at equal
      · cases equal
        rw [exponentOf?_cons, exponentOf?_cons, same]
        split <;> rfl
      · cases equal
    · rename_i unlike
      have differs : known.unit.family ≠ power.unit.family := fun same =>
        unlike (beq_iff_eq.mpr same)
      obtain ⟨others, mergedRest, equal⟩ := bind_eq_ok.mp equal
      cases equal
      rw [exponentOf?_cons, exponentOf?_cons, inductionHypothesis mergedRest]
      by_cases here : known.unit.family = family
      · have elsewhere : power.unit.family ≠ family := fun same => differs (here.trans same.symm)
        simp only [if_pos here, if_neg elsewhere]
      · simp only [if_neg here]

/-- A power is refused if there is one of its family of another unit. -/
theorem exists_mergePower_iff : (∃ merged, mergePower power families = .ok merged) ↔
    ∀ known, powerOf? power.unit.family families = some known → known.unit.id = power.unit.id := by
  induction families with
  | nil => simp [mergePower, powerOf?]
  | cons known rest inductionHypothesis =>
    rw [powerOf?_cons, mergePower]
    by_cases same : known.unit.family = power.unit.family
    · have alike : known.unit.sameFamily power.unit = true := beq_iff_eq.mpr same
      rw [if_pos alike, if_pos same]
      by_cases unit : known.unit.id = power.unit.id
      · simp [unit]
      · simp [unit]
    · have unlike : ¬ known.unit.sameFamily power.unit = true := fun alike =>
        same (eq_of_beq alike)
      rw [if_neg unlike, if_neg same, ← inductionHypothesis]
      constructor
      · rintro ⟨_, equal⟩
        obtain ⟨others, mergedRest, _⟩ := bind_eq_ok.mp equal
        exact ⟨others, mergedRest⟩
      · rintro ⟨others, mergedRest⟩
        exact ⟨known :: others, bind_eq_ok.mpr ⟨others, mergedRest, rfl⟩⟩

/-! ### All powers -/

/-- Units of one family are the same unit. -/
def Unmixed (units : List (NamedUnit Float)) : Prop :=
  ∀ first ∈ units, ∀ second ∈ units, first.family = second.family → first.id = second.id

theorem unmixed_concat {units : List (NamedUnit Float)} {unit : NamedUnit Float} :
    Unmixed (units ++ [unit]) ↔
      Unmixed units ∧ ∀ known ∈ units, known.family = unit.family → known.id = unit.id := by
  simp only [Unmixed, List.forall_mem_append, List.forall_mem_singleton]
  constructor
  · rintro ⟨before, _⟩
    exact ⟨fun first member => (before first member).1, fun known member => (before known member).2⟩
  · rintro ⟨before, last⟩
    exact ⟨fun first member => ⟨before first member, last first member⟩,
      fun known member same => (last known member same.symm).symm, fun _ => trivial⟩

/-- The powers merged one after the other. -/
theorem foldlM_mergePower_concat (powers : List (UnitPower Float)) (power : UnitPower Float) :
    (powers ++ [power]).foldlM (fun families power => mergePower power families) [] =
      powers.foldlM (fun families power => mergePower power families) [] >>= mergePower power := by
  rw [List.foldlM_append]
  refine bind_congr fun families => ?_
  rw [List.foldlM_cons]
  exact bind_pure _

/-- The exponents of a family are added in their order. -/
theorem exponentOf?_of_merged (equal : powers.foldlM
    (fun families power => mergePower power families) [] = .ok merged) (family : String) :
    exponentOf? family merged = inOrderSum (exponentsOf family powers) := by
  induction powers using List.reverseRecOn generalizing merged with
  | nil =>
    cases equal
    rfl
  | append_singleton powers power inductionHypothesis =>
    rw [foldlM_mergePower_concat] at equal
    obtain ⟨families, before, equal⟩ := bind_eq_ok.mp equal
    rw [exponentOf?_mergePower equal, inductionHypothesis before, exponentsOf_append,
      exponentsOf_singleton]
    split
    · rw [inOrderSum_concat]
    · rw [List.append_nil]

/-- Merged powers are of units that were there. -/
theorem exists_unit_of_merged (equal : powers.foldlM
    (fun families power => mergePower power families) [] = .ok merged) :
    ∀ entry ∈ merged, ∃ power ∈ powers, power.unit = entry.unit :=
  @over_foldlM_mergePower (fun unit => ∃ power ∈ powers, power.unit = unit) powers [] merged
    (fun power member => ⟨power, member, rfl⟩)
    (fun _ member => absurd member List.not_mem_nil) equal

/-- Powers are merged unless two of them are of different units of one family. -/
theorem exists_merged_iff : (∃ merged, powers.foldlM
    (fun families power => mergePower power families) [] = .ok merged) ↔
      Unmixed (powers.map UnitPower.unit) := by
  induction powers using List.reverseRecOn with
  | nil =>
    refine ⟨fun _ first member => absurd member List.not_mem_nil, fun _ => ⟨[], rfl⟩⟩
  | append_singleton powers power inductionHypothesis =>
    rw [foldlM_mergePower_concat, List.map_append, List.map_singleton, unmixed_concat,
      ← inductionHypothesis]
    simp only [bind_eq_ok, List.forall_mem_map]
    constructor
    · rintro ⟨_, families, before, equal⟩
      refine ⟨⟨families, before⟩, fun named member same => ?_⟩
      have among : exponentOf? power.unit.family families ≠ none := by
        rw [exponentOf?_of_merged before, Ne, inOrderSum_eq_none, exponentsOf_eq_nil]
        exact fun other => other named member same
      obtain ⟨exponent, found⟩ := Option.ne_none_iff_exists'.mp among
      obtain ⟨known, found, _⟩ := Option.map_eq_some_iff.mp found
      have apart := apart_foldlM_mergePower List.Pairwise.nil before
      obtain ⟨inFamilies, family⟩ := (powerOf?_eq_some_iff apart).mp found
      obtain ⟨earlier, inPowers, unit⟩ := exists_unit_of_merged before known inFamilies
      have unmixed := inductionHypothesis.mp ⟨families, before⟩
      have alike : named.unit.family = earlier.unit.family := by
        rw [same, unit, family]
      calc named.unit.id
        _ = earlier.unit.id := unmixed _ (List.mem_map_of_mem member) _
          (List.mem_map_of_mem inPowers) alike
        _ = known.unit.id := congrArg NamedUnit.id unit
        _ = power.unit.id := exists_mergePower_iff.mp ⟨_, equal⟩ known found
    · rintro ⟨⟨families, before⟩, last⟩
      have accepted : ∃ merged, mergePower power families = .ok merged := by
        refine exists_mergePower_iff.mpr fun known found => ?_
        have apart := apart_foldlM_mergePower List.Pairwise.nil before
        obtain ⟨inFamilies, family⟩ := (powerOf?_eq_some_iff apart).mp found
        obtain ⟨earlier, inPowers, unit⟩ := exists_unit_of_merged before known inFamilies
        rw [← unit] at family ⊢
        exact last earlier inPowers family
      obtain ⟨merged, equal⟩ := accepted
      exact ⟨merged, families, before, equal⟩

theorem exists_ofPowers_iff : (∃ unit, ofPowers powers = .ok unit) ↔
    Unmixed (powers.map UnitPower.unit) := by
  rw [← exists_merged_iff]
  constructor
  · rintro ⟨_, equal⟩
    obtain ⟨merged, folded, _⟩ := bind_eq_ok.mp equal
    exact ⟨merged, folded⟩
  · rintro ⟨merged, folded⟩
    exact ⟨_, bind_eq_ok.mpr ⟨merged, folded, rfl⟩⟩

end CompoundUnit

end UnitSheet
