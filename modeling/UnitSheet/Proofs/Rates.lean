/-
This file says which units a document can use.

A catalogue has a history: it starts as the list of the program, and exchange rates are set and
taken back. Rates never change which units and names there are, so every name that stands for an
id finds its unit, and no rate gives a unit a negative scale. The units of brackets are those of
the catalogue and units of their own.
-/

import UnitSheet.Proofs.Scales
import UnitSheet.Proofs.Tables

namespace UnitSheet

/-! ### The units of a bracket -/

namespace CompoundUnit

variable {holds : NamedUnit Float → Prop}

/-- The powers in a bracket are powers of the units that are named in it. -/
theorem over_namedPowers {below : Bool} {named : List (UnitPower Float)} {atoms : List UnitAtom}
    {powers : List (UnitPower Float)} (known : ∀ power ∈ named, holds power.unit)
    (each : ∀ unit, .named unit ∈ atoms → holds unit)
    (equal : namedPowers below named atoms = .ok powers) : ∀ power ∈ powers, holds power.unit := by
  induction below, named, atoms using namedPowers.induct with
  | case1 below named =>
    rw [namedPowers] at equal
    cases equal
    exact fun power member => known power (List.mem_reverse.mp member)
  | case2 below named unit rest inductionHypothesis =>
    rw [namedPowers] at equal
    refine inductionHypothesis ?_ (fun other member => each other (List.mem_cons_of_mem _ member))
      equal
    exact List.forall_mem_cons.mpr ⟨each unit List.mem_cons_self, known⟩
  | case3 named rest =>
    rw [namedPowers, if_pos rfl] at equal
    cases equal
  | case4 below named rest above inductionHypothesis =>
    rw [namedPowers, if_neg above] at equal
    exact inductionHypothesis known
      (fun other member => each other (List.mem_cons_of_mem _ member)) equal
  | case5 below rest =>
    rw [namedPowers] at equal
    cases equal
  | case6 below last earlier text others exponent read inductionHypothesis =>
    rw [namedPowers, read] at equal
    obtain ⟨atLast, inEarlier⟩ := List.forall_mem_cons.mp known
    refine inductionHypothesis (List.forall_mem_cons.mpr ⟨atLast, inEarlier⟩) ?_ equal
    intro other member
    exact each other (List.mem_cons_of_mem _ (List.mem_cons_of_mem _ member))
  | case7 below last earlier text others read =>
    rw [namedPowers, read] at equal
    cases equal
  | case8 below rest head tail noNumber =>
    rw [namedPowers] at equal
    · cases equal
    · exact noNumber
  | case9 below named text rest first inductionHypothesis =>
    rw [namedPowers, if_pos first] at equal
    exact inductionHypothesis known
      (fun other member => each other (List.mem_cons_of_mem _ member)) equal
  | case10 below named text rest later =>
    rw [namedPowers, if_neg later] at equal
    cases equal

theorem over_mergePower {power : UnitPower Float} {families merged : List (UnitPower Float)}
    (atPower : holds power.unit) (known : ∀ family ∈ families, holds family.unit)
    (equal : mergePower power families = .ok merged) : ∀ family ∈ merged, holds family.unit := by
  induction families generalizing merged with
  | nil =>
    cases equal
    exact List.forall_mem_cons.mpr ⟨atPower, fun _ member => absurd member List.not_mem_nil⟩
  | cons family rest inductionHypothesis =>
    obtain ⟨atFamily, inRest⟩ := List.forall_mem_cons.mp known
    rw [mergePower] at equal
    split at equal
    · split at equal
      · cases equal
        exact List.forall_mem_cons.mpr ⟨atPower, inRest⟩
      · cases equal
    · obtain ⟨others, mergedRest, equal⟩ := bind_eq_ok.mp equal
      cases equal
      exact List.forall_mem_cons.mpr ⟨atFamily, inductionHypothesis inRest mergedRest⟩

theorem over_foldlM_mergePower {powers families merged : List (UnitPower Float)}
    (each : ∀ power ∈ powers, holds power.unit) (known : ∀ family ∈ families, holds family.unit)
    (equal : powers.foldlM (fun families power => mergePower power families) families =
      .ok merged) : ∀ family ∈ merged, holds family.unit := by
  induction powers generalizing families with
  | nil =>
    cases equal
    exact known
  | cons power rest inductionHypothesis =>
    obtain ⟨atPower, inRest⟩ := List.forall_mem_cons.mp each
    rw [List.foldlM_cons] at equal
    obtain ⟨next, mergedPower, equal⟩ := bind_eq_ok.mp equal
    exact inductionHypothesis inRest (over_mergePower atPower known mergedPower) equal

/-- The unit of a bracket is made of the units that are named in it. -/
theorem over_ofAtoms {atoms : List UnitAtom} {unit : CompoundUnit Float}
    (each : ∀ named, .named named ∈ atoms → holds named) (equal : ofAtoms atoms = .ok unit) :
    unit.Over holds := by
  obtain ⟨powers, named, equal⟩ := bind_eq_ok.mp equal
  obtain ⟨merged, folded, equal⟩ := bind_eq_ok.mp equal
  cases equal
  have inPowers := over_namedPowers (fun _ member => absurd member List.not_mem_nil) each named
  have inMerged := over_foldlM_mergePower inPowers
    (fun _ member => absurd member List.not_mem_nil) folded
  refine Over.canonical fun power member => ?_
  exact inMerged power (List.mem_of_mem_filter member)

end CompoundUnit

namespace Catalog

variable {catalog adjusted : Catalog}

/-- The units of a bracket are those that the catalogue has or makes for its names. -/
theorem over_of_hasUnit {holds : NamedUnit Float → Prop}
    (each : ∀ name, holds (UnitAtom.unitOfName catalog name)) {unit : CompoundUnit Float}
    (known : catalog.HasUnit unit) : unit.Over holds := by
  rcases known with rfl | ⟨contents, atoms, read, equal⟩
  · exact CompoundUnit.over_empty
  · refine CompoundUnit.over_ofAtoms (fun named member => ?_) equal
    obtain ⟨⟨kind, text⟩, _, ofToken⟩ := exists_of_mem_mapM read member
    cases kind with
    | literal =>
      cases ofToken
      exact each text
    | operator =>
      simp only [UnitAtom.ofToken] at ofToken
      repeat' split at ofToken
      all_goals cases ofToken
    | _ => cases ofToken

/-! ### The history of a catalogue -/

/-- A catalogue after exchange rates have been set and taken back any number of times. -/
inductive Adjusted : Catalog → Prop
  | initial : Adjusted builtin
  | setRates {catalog adjusted : Catalog} (rates : List (String × Float)) :
      Adjusted catalog → catalog.setRates rates = .ok adjusted → Adjusted adjusted
  | resetRates {catalog : Catalog} : Adjusted catalog → Adjusted catalog.resetRates

/-- What rates leave alone, and what they can do. -/
structure Kept (catalog : Catalog) : Prop where
  units : catalog.units = builtin.units
  aliases : catalog.aliases = builtin.aliases
  rates : ∀ id factor, catalog.rateFactors.find? id = some factor →
    ∃ rate : Float, ¬ rate ≤ 0 ∧ factor = 1 / rate

/-- A rate is accepted if it is that of a currency and positive, and gives its reciprocal. -/
theorem rateFactor_eq_ok_iff {entry result : String × Float} :
    catalog.rateFactor entry = .ok result ↔ catalog.isCurrency (catalog.rateId entry.1) = true ∧
      ¬ entry.2 ≤ 0 ∧ result = (catalog.rateId entry.1, 1 / entry.2) := by
  simp only [rateFactor]
  cases catalog.isCurrency (catalog.rateId entry.1) with
  | false => exact ⟨nofun, nofun⟩
  | true =>
    rw [Bool.not_true, if_neg Bool.false_ne_true]
    by_cases refused : entry.2 ≤ 0
    · rw [if_pos refused]
      exact ⟨nofun, fun accepted => absurd refused accepted.2.1⟩
    · rw [if_neg refused]
      constructor
      · intro equal
        exact ⟨rfl, refused, (Except.ok.inj equal).symm⟩
      · rintro ⟨_, _, equal⟩
        rw [equal]

/-- A factor that is found after rates have been set is that of one of them or was there before. -/
theorem exists_entry_of_setRates {rates : List (String × Float)}
    (equal : catalog.setRates rates = .ok adjusted) {id : String} {factor : Float}
    (found : adjusted.rateFactors.find? id = some factor) :
    (∃ entry ∈ rates, catalog.rateFactor entry = .ok (id, factor)) ∨
      catalog.rateFactors.find? id = some factor := by
  obtain ⟨factors, accepted, equal⟩ := bind_eq_ok.mp equal
  cases equal
  rw [Table.find?_putAll] at found
  rcases Option.or_eq_some_iff.mp found with new | ⟨_, old⟩
  · have member : (id, factor) ∈ factors := List.mem_reverse.mp (Table.mem_of_lookup new)
    exact .inl (exists_of_mem_mapM accepted member)
  · exact .inr old

theorem units_of_setRates {rates : List (String × Float)}
    (equal : catalog.setRates rates = .ok adjusted) :
    adjusted.units = catalog.units ∧ adjusted.aliases = catalog.aliases := by
  obtain ⟨_, _, equal⟩ := bind_eq_ok.mp equal
  cases equal
  exact ⟨rfl, rfl⟩

theorem Kept.setRates (kept : Kept catalog) {rates : List (String × Float)}
    (equal : catalog.setRates rates = .ok adjusted) : Kept adjusted := by
  obtain ⟨units, aliases⟩ := units_of_setRates equal
  refine ⟨units.trans kept.units, aliases.trans kept.aliases, fun id factor found => ?_⟩
  rcases exists_entry_of_setRates equal found with ⟨entry, _, accepted⟩ | old
  · obtain ⟨_, above, same⟩ := rateFactor_eq_ok_iff.mp accepted
    exact ⟨entry.2, above, congrArg Prod.snd same⟩
  · exact kept.rates id factor old

/-- Whatever the rates, the units and names are those of the program. -/
theorem Adjusted.kept (history : Adjusted catalog) : Kept catalog := by
  induction history with
  | initial => exact ⟨rfl, rfl, nofun⟩
  | setRates rates _ equal inductionHypothesis => exact inductionHypothesis.setRates equal
  | resetRates _ inductionHypothesis =>
    exact ⟨inductionHypothesis.units, inductionHypothesis.aliases, nofun⟩

/-- A catalogue is the one of the program with the factors that its rates give. -/
theorem Adjusted.eq_builtin_with (history : Adjusted catalog) :
    catalog = { builtin with rateFactors := catalog.rateFactors } := by
  have kept := history.kept
  cases catalog
  rw [Catalog.mk.injEq]
  exact ⟨kept.units, kept.aliases, rfl⟩

/-- Only currencies ever have a rate. -/
theorem Adjusted.isCurrency_of_rate (history : Adjusted catalog) {id : String} {factor : Float}
    (found : catalog.rateFactors.find? id = some factor) : builtin.isCurrency id = true := by
  induction history with
  | initial => cases found
  | setRates rates before equal inductionHypothesis =>
    rcases exists_entry_of_setRates equal found with ⟨entry, _, accepted⟩ | old
    · obtain ⟨currency, _, same⟩ := rateFactor_eq_ok_iff.mp accepted
      rw [← (Prod.mk.inj same).1, isCurrency, before.kept.units] at currency
      exact currency
    · exact inductionHypothesis old
  | resetRates => cases found

/-- Rates leave the units alone that are not currencies. -/
theorem Adjusted.get?_eq_of_not_currency (history : Adjusted catalog) {id : String}
    (other : builtin.isCurrency id = false) : catalog.get? id = builtin.get? id := by
  have unrated : catalog.rateFactors.find? id = none := by
    refine Option.eq_none_iff_forall_ne_some.mpr fun factor found => ?_
    exact Bool.false_ne_true (other.symm.trans (history.isCurrency_of_rate found))
  have initially : builtin.rateFactors.find? id = none := rfl
  rw [get?, get?, history.kept.units, unrated, initially]

theorem scaled_of_mem_builtinUnits : ∀ unit ∈ builtinUnits, unit.Scaled := by
  decide +kernel

/-- No unit of the catalogue has a negative scale. -/
theorem Adjusted.scaled (history : Adjusted catalog) {id : String} {unit : NamedUnit Float}
    (found : catalog.get? id = some unit) : unit.Scaled := by
  obtain ⟨base, inUnits, equal⟩ := Option.map_eq_some_iff.mp found
  rw [history.kept.units] at inUnits
  cases rate : catalog.rateFactors.find? id with
  | some factor =>
    rw [rate] at equal
    cases equal
    obtain ⟨value, above, rfl⟩ := history.kept.rates id factor rate
    exact Floating.not_one_div_lt_zero above
  | none =>
    rw [rate] at equal
    cases equal
    obtain ⟨unit, member, same⟩ := List.mem_map.mp (Table.mem_of_lookup inUnits)
    cases same
    exact scaled_of_mem_builtinUnits _ member

theorem Adjusted.scaled_unitOfName (history : Adjusted catalog) (name : String) :
    (UnitAtom.unitOfName catalog name).Scaled := by
  unfold UnitAtom.unitOfName
  cases found : catalog.lookup? name with
  | none => exact (by decide : ¬ (1 : Float) < 0)
  | some unit =>
    obtain ⟨id, _, found⟩ := Option.bind_eq_some_iff.mp found
    exact history.scaled found

/-- A name that stands for an id finds its unit. -/
theorem Adjusted.exists_get? (history : Adjusted catalog) {name id : String}
    (resolved : catalog.resolve? name = some id) : ∃ unit, catalog.get? id = some unit := by
  have kept := history.kept
  have inAliases : (Table.ofList (aliasEntries builtinUnits)).find? name = some id := by
    rw [show Table.ofList (aliasEntries builtinUnits) = catalog.aliases from kept.aliases.symm]
    exact resolved
  obtain ⟨unit, inUnits, listed⟩ := List.mem_flatMap.mp (Table.mem_of_find?_ofList inAliases)
  obtain ⟨_, _, same⟩ := List.mem_map.mp listed
  cases same
  have inKeys : unit.id ∈ builtin.units.keys :=
    List.mem_map.mpr ⟨(unit.id, unit), List.mem_map.mpr ⟨unit, inUnits, rfl⟩, rfl⟩
  obtain ⟨found, equal⟩ := (Table.mem_keys_iff _ _).mp inKeys
  rw [← kept.units] at equal
  exact ⟨_, Option.map_eq_some_iff.mpr ⟨found, equal, rfl⟩⟩

end Catalog

end UnitSheet
