/-
This file says what a catalogue holds after any history of exchange rates.

Whatever units a catalogue is made of, an alias stands for the last unit that is listed with it, and
an exchange rate is given for the unit that its key stands for, or else for the key itself. Rates
are refused together if one of them is not that of a currency or not positive. Of all that has been
accepted, one rate is in force for a unit (`InForce`): the last one for it in the latest rates that
have one, unless rates have been taken back since. The factor of a unit is the reciprocal of the
rate in force, and the one it is listed with if there is none.
-/

import UnitSheet.Proofs.Workbooks

namespace UnitSheet

/-! ### The last of several items -/

/-- An item of a list has a property, and all items after it leave it in place. -/
def Prevails {α : Type} (holds leaves : α → Prop) (items : List α) : Prop :=
  ∃ before item after, items = before ++ item :: after ∧ holds item ∧
    ∀ later ∈ after, leaves later

theorem not_prevails_nil {α : Type} {holds leaves : α → Prop} : ¬ Prevails holds leaves [] := by
  rintro ⟨before, item, after, split, _⟩
  simp at split

/-- The last item prevails, or what prevailed before it is left in place. -/
theorem prevails_concat {α : Type} {holds leaves : α → Prop} {items : List α} {last : α} :
    Prevails holds leaves (items ++ [last]) ↔
      holds last ∨ Prevails holds leaves items ∧ leaves last := by
  constructor
  · rintro ⟨before, item, after, split, atItem, atLater⟩
    rcases after.eq_nil_or_concat with rfl | ⟨after, final, rfl⟩
    · obtain ⟨_, same⟩ := List.append_inj' split rfl
      cases same
      exact .inl atItem
    · rw [List.concat_eq_append, ← List.cons_append, ← List.append_assoc] at split
      obtain ⟨rfl, same⟩ := List.append_inj' split rfl
      cases same
      simp only [List.concat_eq_append, List.forall_mem_append, List.forall_mem_singleton]
        at atLater
      exact .inr ⟨⟨before, item, after, rfl, atItem, atLater.1⟩, atLater.2⟩
  · rintro (atLast | ⟨⟨before, item, after, rfl, atItem, atLater⟩, leaves⟩)
    · exact ⟨items, last, [], rfl, atLast, fun _ member => absurd member List.not_mem_nil⟩
    · refine ⟨before, item, after ++ [last], by simp, atItem, ?_⟩
      simpa only [List.forall_mem_append, List.forall_mem_singleton] using ⟨atLater, leaves⟩

namespace Catalog

/-! ### Units of a list -/

section Listed

variable (units : List (NamedUnit Float))

/-- The unit that an alias stands for: the last one that is listed with it. -/
def holder? (name : String) : Option (NamedUnit Float) :=
  units.reverse.find? fun unit => unit.aliases.contains name

/-- The id that an exchange rate is given for. -/
def ratedId (key : String) : String :=
  ((holder? units key).map NamedUnit.id).getD key

/-- The id is that of a currency. -/
def ListsCurrency (id : String) : Prop :=
  ∃ unit ∈ units, unit.id = id ∧ unit.family = currencyFamily

/-- Some exchange rate is not that of a currency, or not positive. -/
def Unacceptable (rates : List (String × Float)) : Prop :=
  ∃ entry ∈ rates, ¬ ListsCurrency units (ratedId units entry.1) ∨ entry.2 ≤ 0

/-- No exchange rate is given for an id. -/
def Unrated (rates : List (String × Float)) (id : String) : Prop :=
  ∀ entry ∈ rates, ratedId units entry.1 ≠ id

/-- The last exchange rate that is given for an id. -/
def LastRate (rates : List (String × Float)) (id : String) (rate : Float) : Prop :=
  Prevails (fun entry => ratedId units entry.1 = id ∧ entry.2 = rate)
    (fun entry => ratedId units entry.1 ≠ id) rates

instance (id : String) : Decidable (ListsCurrency units id) :=
  inferInstanceAs (Decidable (∃ unit ∈ units, unit.id = id ∧ unit.family = currencyFamily))

instance (rates : List (String × Float)) : Decidable (Unacceptable units rates) :=
  inferInstanceAs (Decidable (∃ entry ∈ rates,
    ¬ ListsCurrency units (ratedId units entry.1) ∨ entry.2 ≤ 0))

end Listed

variable {units : List (NamedUnit Float)}

theorem repeatedId?_eq_none {met : List String} (distinct : (units.map NamedUnit.id).Nodup)
    (fresh : ∀ unit ∈ units, unit.id ∉ met) : repeatedId? met units = none := by
  induction units generalizing met with
  | nil => rfl
  | cons unit rest inductionHypothesis =>
    obtain ⟨new, distinct⟩ := List.nodup_cons.mp distinct
    have unmet : met.contains unit.id = false := by simpa using fresh unit List.mem_cons_self
    rw [repeatedId?, unmet, if_neg Bool.false_ne_true]
    refine inductionHypothesis distinct fun other member => ?_
    rw [List.mem_cons, not_or]
    refine ⟨fun same => new ?_, fresh other (List.mem_cons_of_mem _ member)⟩
    exact same ▸ List.mem_map_of_mem member

/-- A list of units with distinct ids makes a catalogue. -/
theorem ofUnits_eq_index (distinct : (units.map NamedUnit.id).Nodup) :
    ofUnits units = .ok (index units) := by
  rw [ofUnits, repeatedId?_eq_none distinct fun _ _ => List.not_mem_nil]

/-- What is found under an id is the unit of that id. -/
theorem find?_units_index (distinct : (units.map NamedUnit.id).Nodup) {id : String}
    {unit : NamedUnit Float} :
    (index units).units.find? id = some unit ↔ unit ∈ units ∧ unit.id = id := by
  show (units.map fun unit => (unit.id, unit)).lookup id = some unit ↔ _
  induction units with
  | nil => simp
  | cons first rest inductionHypothesis =>
    obtain ⟨new, distinct⟩ := List.nodup_cons.mp distinct
    rw [List.map_cons, Table.lookup_cons, List.mem_cons]
    by_cases same : id = first.id
    · rw [if_pos same, Option.some_inj]
      constructor
      · rintro rfl
        exact ⟨.inl rfl, same.symm⟩
      · rintro ⟨rfl | member, atId⟩
        · rfl
        · exact absurd (List.mem_map.mpr ⟨unit, member, atId.trans same⟩) new
    · rw [if_neg same, inductionHypothesis distinct]
      refine ⟨fun ⟨member, atId⟩ => ⟨.inr member, atId⟩, fun ⟨member, atId⟩ => ⟨?_, atId⟩⟩
      exact member.resolve_left fun equal => same (equal ▸ atId.symm)

/-- Of the aliases of one unit, each stands for it. -/
theorem lookup_aliases (unit : NamedUnit Float) (name : String) :
    ((unit.aliases.map fun known => (known, unit.id)).reverse).lookup name =
      if unit.aliases.contains name then some unit.id else none := by
  rw [← List.map_reverse, ← List.contains_reverse]
  induction unit.aliases.reverse with
  | nil => rfl
  | cons known rest inductionHypothesis =>
    rw [List.map_cons, Table.lookup_cons, inductionHypothesis, List.contains_cons]
    by_cases same : name = known
    · simp [same]
    · simp [same]

/-- An alias stands for the last unit that is listed with it. -/
theorem resolve?_index (units : List (NamedUnit Float)) (name : String) :
    (index units).resolve? name = (holder? units name).map NamedUnit.id := by
  show (Table.ofList (aliasEntries units)).find? name = _
  rw [Table.find?_ofList, holder?]
  induction units using List.reverseRecOn with
  | nil => rfl
  | append_singleton units unit inductionHypothesis =>
    have entries : aliasEntries (units ++ [unit]) =
        aliasEntries units ++ unit.aliases.map fun known => (known, unit.id) := by
      simp [aliasEntries]
    rw [entries, List.reverse_append, List.lookup_append, lookup_aliases, inductionHypothesis,
      List.reverse_concat, List.find?_cons]
    cases unit.aliases.contains name with
    | true => rfl
    | false => rfl

/-! ### Exchange rates on a list -/

/-- The catalogue of a list of units with some factors replaced. -/
def withFactors (units : List (NamedUnit Float)) (factors : Table Float) : Catalog :=
  { index units with rateFactors := factors }

/-- The factors that exchange rates give. -/
def factorsOf (units : List (NamedUnit Float)) (rates : List (String × Float)) :
    List (String × Float) :=
  rates.map fun entry => (ratedId units entry.1, 1 / entry.2)

variable {factors : Table Float} {rates : List (String × Float)}

theorem rateId_withFactors (named : ∀ unit ∈ units, unit.id ≠ "") (key : String) :
    (withFactors units factors).rateId key = ratedId units key := by
  have resolved : (withFactors units factors).resolve? key = _ := resolve?_index units key
  rw [rateId, resolved, ratedId]
  cases found : holder? units key with
  | none => rfl
  | some unit =>
    have member : unit ∈ units := List.mem_reverse.mp (List.mem_of_find?_eq_some found)
    have nonempty : unit.id.isEmpty = false := by simpa using named unit member
    simp [nonempty]

theorem isCurrency_withFactors (distinct : (units.map NamedUnit.id).Nodup) (id : String) :
    (withFactors units factors).isCurrency id = true ↔ ListsCurrency units id := by
  have found : ∀ unit, (index units).units.find? id = some unit ↔ unit ∈ units ∧ unit.id = id :=
    fun _ => find?_units_index distinct
  have listed : (withFactors units factors).units = (index units).units := rfl
  rw [isCurrency, listed]
  cases atId : (index units).units.find? id with
  | none =>
    simp only [atId, reduceCtorEq, false_iff, not_and] at found
    refine iff_of_false Bool.false_ne_true ?_
    rintro ⟨unit, member, same, _⟩
    exact found unit member same
  | some unit =>
    obtain ⟨member, same⟩ := (found unit).mp atId
    rw [beq_iff_eq]
    refine ⟨fun currency => ⟨unit, member, same, currency⟩, ?_⟩
    rintro ⟨other, listed, atOther, currency⟩
    have equal := atId.symm.trans ((found other).mpr ⟨listed, atOther⟩)
    rw [Option.some_inj.mp equal]
    exact currency

/-- Exchange rates are set together if all of them are acceptable. -/
theorem setRates_eq_ok_iff (distinct : (units.map NamedUnit.id).Nodup)
    (named : ∀ unit ∈ units, unit.id ≠ "") {adjusted : Catalog} :
    (withFactors units factors).setRates rates = .ok adjusted ↔
      ¬ Unacceptable units rates ∧
        adjusted = withFactors units (factors.putAll (factorsOf units rates)) := by
  have accepted : ∀ results,
      rates.mapM (withFactors units factors).rateFactor = .ok results ↔
        ¬ Unacceptable units rates ∧ results = factorsOf units rates := by
    intro results
    have each : ∀ entry result, (withFactors units factors).rateFactor entry = .ok result ↔
        (ListsCurrency units (ratedId units entry.1) ∧ ¬ entry.2 ≤ 0) ∧
          (ratedId units entry.1, 1 / entry.2) = result := by
      intro entry result
      rw [rateFactor_eq_ok_iff, rateId_withFactors named, isCurrency_withFactors distinct,
        and_assoc, eq_comm (a := result)]
    have all : (∀ entry ∈ rates, ListsCurrency units (ratedId units entry.1) ∧ ¬ entry.2 ≤ 0) ↔
        ¬ Unacceptable units rates := by
      simp only [Unacceptable, not_exists, not_and, not_or, not_not]
    simp only [mapM_eq_ok_iff, each, List.forall₂_and_left, all]
    rw [← List.forall₂_map_left_iff, List.forall₂_eq_eq_eq, eq_comm, factorsOf]
  rw [setRates, bind_eq_ok]
  constructor
  · rintro ⟨results, equal, same⟩
    obtain ⟨acceptable, rfl⟩ := (accepted results).mp equal
    exact ⟨acceptable, (Except.ok.inj same).symm⟩
  · rintro ⟨acceptable, rfl⟩
    exact ⟨_, (accepted _).mpr ⟨acceptable, rfl⟩, rfl⟩

theorem setRates_of_acceptable (factors : Table Float)
    (distinct : (units.map NamedUnit.id).Nodup) (named : ∀ unit ∈ units, unit.id ≠ "")
    (acceptable : ¬ Unacceptable units rates) :
    (withFactors units factors).setRates rates =
      .ok (withFactors units (factors.putAll (factorsOf units rates))) :=
  (setRates_eq_ok_iff distinct named).mpr ⟨acceptable, rfl⟩

/-- Exchange rates are refused exactly when one of them is not acceptable. -/
theorem exists_setRates_eq_error_iff (distinct : (units.map NamedUnit.id).Nodup)
    (named : ∀ unit ∈ units, unit.id ≠ "") :
    (∃ error, (withFactors units factors).setRates rates = .error error) ↔
      Unacceptable units rates := by
  by_cases refused : Unacceptable units rates
  · refine ⟨fun _ => refused, fun _ => ?_⟩
    cases result : (withFactors units factors).setRates rates with
    | ok adjusted => exact absurd refused ((setRates_eq_ok_iff distinct named).mp result).1
    | error error => exact ⟨error, rfl⟩
  · rw [setRates_of_acceptable factors distinct named refused]
    exact ⟨nofun, fun unacceptable => absurd unacceptable refused⟩

/-- A unit is found as it is listed, but for a factor that replaces its own. -/
theorem get?_withFactors (factors : Table Float) (distinct : (units.map NamedUnit.id).Nodup)
    {unit : NamedUnit Float} (member : unit ∈ units) : (withFactors units factors).get? unit.id =
      match factors.find? unit.id with
      | some factor => some { unit with factor := factor }
      | none => some unit := by
  have found : (withFactors units factors).units.find? unit.id = some unit :=
    (find?_units_index distinct).mpr ⟨member, rfl⟩
  rw [get?, found, Option.map_some]
  show some (match factors.find? unit.id with
    | some factor => { unit with factor := factor }
    | none => unit) = _
  cases factors.find? unit.id with
  | none => rfl
  | some factor => rfl

theorem contains_withFactors (distinct : (units.map NamedUnit.id).Nodup) (id : String) :
    (withFactors units factors).contains id = true ↔ ∃ unit ∈ units, unit.id = id := by
  rw [contains, Table.contains, Option.isSome_iff_exists]
  exact exists_congr fun unit => find?_units_index distinct

theorem get?_withFactors_eq_none (distinct : (units.map NamedUnit.id).Nodup) {id : String}
    (absent : ∀ unit ∈ units, unit.id ≠ id) : (withFactors units factors).get? id = none := by
  refine Option.map_eq_none_iff.mpr (Option.eq_none_iff_forall_ne_some.mpr fun unit found => ?_)
  obtain ⟨member, same⟩ := (find?_units_index distinct).mp found
  exact absent unit member same

/-- The factor that is found for an id is the reciprocal of the last rate for it. -/
theorem lookup_factorsOf {id : String} {factor : Float} :
    (factorsOf units rates).reverse.lookup id = some factor ↔
      ∃ rate, LastRate units rates id rate ∧ factor = 1 / rate := by
  induction rates using List.reverseRecOn with
  | nil => simp [factorsOf, LastRate, not_prevails_nil]
  | append_singleton rates last inductionHypothesis =>
    rw [factorsOf] at inductionHypothesis
    rw [factorsOf, List.map_append, List.map_singleton, List.reverse_concat, Table.lookup_cons]
    simp only [LastRate, prevails_concat]
    by_cases same : id = ratedId units last.1
    · simp [same, eq_comm]
    · rw [if_neg same, inductionHypothesis]
      simp [LastRate, Ne.symm same]

/-- An id for which no rate is given has no factor from them. -/
theorem lookup_factorsOf_eq_none_iff {id : String} :
    (factorsOf units rates).reverse.lookup id = none ↔ Unrated units rates id := by
  rw [List.lookup_eq_none_iff]
  simp only [factorsOf, List.mem_reverse, List.forall_mem_map, Unrated, bne_iff_ne, ne_comm]

end Catalog

namespace Workbook

/-! ### The rate in force -/

section InForce

variable (units : List (NamedUnit Float))

/-- The action sets exchange rates, and they are accepted. -/
def Sets (action : Action) (rates : List (String × Float)) : Prop :=
  action = .setRates rates ∧ ¬ Catalog.Unacceptable units rates

/-- An exchange rate is in force for an id after several actions: it is the last one for the id in
rates that were accepted, and after them no rate was accepted for the id and rates were not taken
back. -/
def InForce (actions : List Action) (id : String) (rate : Float) : Prop :=
  Prevails (fun action => ∃ rates, Sets units action rates ∧ Catalog.LastRate units rates id rate)
    (fun action => action ≠ .resetRates ∧
      ∀ rates, Sets units action rates → Catalog.Unrated units rates id) actions

end InForce

variable {units : List (NamedUnit Float)} {actions : List Action} {action : Action}
  {rates : List (String × Float)} {id : String} {rate : Float}

theorem inForce_concat :
    InForce units (actions ++ [action]) id rate ↔
      (∃ rates, Sets units action rates ∧ Catalog.LastRate units rates id rate) ∨
        InForce units actions id rate ∧ action ≠ .resetRates ∧
          ∀ rates, Sets units action rates → Catalog.Unrated units rates id :=
  prevails_concat

/-- An action that sets no rates and takes none back leaves the rates in force. -/
theorem inForce_concat_of_idle (sets : ∀ rates, ¬ Sets units action rates)
    (keeps : action ≠ .resetRates) :
    InForce units (actions ++ [action]) id rate ↔ InForce units actions id rate := by
  rw [inForce_concat]
  simp [sets, keeps]

/-- Accepted rates replace those in force for the ids that they are given for. -/
theorem inForce_concat_of_sets (accepted : ¬ Catalog.Unacceptable units rates) :
    InForce units (actions ++ [.setRates rates]) id rate ↔
      Catalog.LastRate units rates id rate ∨
        InForce units actions id rate ∧ Catalog.Unrated units rates id := by
  rw [inForce_concat]
  simp [Sets, accepted]

/-- The factors of a catalogue are those that the rates in force give. -/
def Tracks (units : List (NamedUnit Float)) (actions : List Action) (factors : Table Float) :
    Prop :=
  ∀ id factor, factors.find? id = some factor ↔
    ∃ rate, InForce units actions id rate ∧ factor = 1 / rate

theorem tracks_nil : Tracks units [] Table.empty := by
  intro id factor
  simp only [InForce, not_prevails_nil, false_and, exists_false, iff_false]
  exact nofun

theorem Tracks.setRates {factors : Table Float} (tracks : Tracks units actions factors)
    (accepted : ¬ Catalog.Unacceptable units rates) :
    Tracks units (actions ++ [.setRates rates])
      (factors.putAll (Catalog.factorsOf units rates)) := by
  intro id factor
  rw [Table.find?_putAll, Option.or_eq_some_iff, Catalog.lookup_factorsOf,
    Catalog.lookup_factorsOf_eq_none_iff, tracks]
  simp only [inForce_concat_of_sets accepted, or_and_right, exists_or]
  refine or_congr_right ⟨?_, ?_⟩
  · rintro ⟨unrated, rate, inForce, equal⟩
    exact ⟨rate, ⟨inForce, unrated⟩, equal⟩
  · rintro ⟨rate, ⟨inForce, unrated⟩, equal⟩
    exact ⟨unrated, rate, inForce, equal⟩

theorem tracks_resetRates (units : List (NamedUnit Float)) (actions : List Action) :
    Tracks units (actions ++ [.resetRates]) Table.empty := by
  intro id factor
  have none : ∀ rate, ¬ InForce units (actions ++ [.resetRates]) id rate := by
    intro rate inForce
    simp [inForce_concat, Sets] at inForce
  simp only [none, false_and, exists_false, iff_false]
  exact nofun

theorem Tracks.of_idle {factors : Table Float} (tracks : Tracks units actions factors)
    (sets : ∀ rates, ¬ Sets units action rates) (keeps : action ≠ .resetRates) :
    Tracks units (actions ++ [action]) factors := by
  intro id factor
  simp only [inForce_concat_of_idle sets keeps]
  exact tracks id factor

theorem catalog_next_of_idle (workbook : Workbook) (sets : ∀ rates, action ≠ .setRates rates)
    (keeps : action ≠ .resetRates) : (workbook.next action).catalog = workbook.catalog := by
  rcases next_cases workbook action with same | done
  · rw [same]
  rcases apply_cases done with ⟨_, _, _, _, equal⟩ | ⟨_, _, _, _, _, _, equal⟩ |
    ⟨rates, _, setting, _⟩ | ⟨resetting, _⟩
  · rw [equal]
  · rw [equal]
  · exact absurd setting (sets rates)
  · exact absurd resetting keeps

/-- Rates that are refused change nothing. -/
theorem next_setRates_of_error {workbook : Workbook} {error : CatalogError}
    (refused : workbook.catalog.setRates rates = .error error) :
    workbook.next (.setRates rates) = workbook := by
  simp only [next, apply, refused]
  rfl

theorem next_setRates_of_ok {workbook : Workbook} {adjusted : Catalog}
    (accepted : workbook.catalog.setRates rates = .ok adjusted) :
    workbook.next (.setRates rates) = { workbook with catalog := adjusted } := by
  simp only [next, apply, accepted]
  rfl

/-- One action leaves the units of a catalogue in place and its factors to the rates in force. -/
theorem exists_factors_next (distinct : (units.map NamedUnit.id).Nodup)
    (named : ∀ unit ∈ units, unit.id ≠ "") {workbook : Workbook} {factors : Table Float}
    (listed : workbook.catalog = Catalog.withFactors units factors)
    (tracks : Tracks units actions factors) (action : Action) :
    ∃ changed, (workbook.next action).catalog = Catalog.withFactors units changed ∧
      Tracks units (actions ++ [action]) changed := by
  cases action with
  | compile source =>
    have kept : (workbook.next (.compile source)).catalog = workbook.catalog :=
      catalog_next_of_idle workbook nofun nofun
    exact ⟨factors, kept.trans listed, tracks.of_idle (fun _ sets => nomatch sets.1) nofun⟩
  | evaluate index =>
    have kept : (workbook.next (.evaluate index)).catalog = workbook.catalog :=
      catalog_next_of_idle workbook nofun nofun
    exact ⟨factors, kept.trans listed, tracks.of_idle (fun _ sets => nomatch sets.1) nofun⟩
  | setRates rates =>
    by_cases refused : Catalog.Unacceptable units rates
    · have idle : ∀ others, ¬ Sets units (.setRates rates) others := by
        rintro others ⟨same, accepted⟩
        cases same
        exact accepted refused
      have result : ∃ error, workbook.catalog.setRates rates = .error error := by
        rw [listed]
        exact (Catalog.exists_setRates_eq_error_iff distinct named).mpr refused
      obtain ⟨error, result⟩ := result
      rw [next_setRates_of_error result]
      exact ⟨factors, listed, tracks.of_idle idle nofun⟩
    · have accepted := Catalog.setRates_of_acceptable factors distinct named refused
      rw [← listed] at accepted
      rw [next_setRates_of_ok accepted]
      exact ⟨_, rfl, tracks.setRates refused⟩
  | resetRates =>
    refine ⟨Table.empty, ?_, tracks_resetRates units actions⟩
    show workbook.catalog.resetRates = _
    rw [listed]
    rfl

/-- After any actions the catalogue is that of its units, with the factors that the rates in force
give. -/
theorem exists_factors_after (distinct : (units.map NamedUnit.id).Nodup)
    (named : ∀ unit ∈ units, unit.id ≠ "") (pages : List Page) (actions : List Action) :
    ∃ factors, ((Workbook.mk (Catalog.index units) pages).after actions).catalog =
      Catalog.withFactors units factors ∧ Tracks units actions factors := by
  induction actions using List.reverseRecOn with
  | nil => exact ⟨Table.empty, rfl, tracks_nil⟩
  | append_singleton actions action inductionHypothesis =>
    obtain ⟨factors, listed, tracks⟩ := inductionHypothesis
    rw [after_append]
    exact exists_factors_next distinct named listed tracks action

/-! ### Every history -/

/-- What a catalogue of units with distinct ids, none of them empty, says after any actions, be they
accepted or refused. Ids, aliases and currencies are those of the list: an alias stands for the
last unit that has it, and is never without its unit. Under its id each unit is found as it is
listed, except that its factor is the reciprocal of the rate in force if there is one. Rates are
refused exactly when one of them is not that of a currency or not positive, and then change
nothing. -/
theorem catalog_of_history (distinct : (units.map NamedUnit.id).Nodup)
    (named : ∀ unit ∈ units, unit.id ≠ "") :
    ∃ listed, Catalog.ofUnits units = .ok listed ∧
      ∀ (pages : List Page) (actions : List Action) (current : Catalog),
        ((Workbook.mk listed pages).after actions).catalog = current →
        current.ids = units.map NamedUnit.id ∧
        (∀ id, current.contains id = true ↔ ∃ unit ∈ units, unit.id = id) ∧
        (∀ id, current.isCurrency id = true ↔ Catalog.ListsCurrency units id) ∧
        (∀ name, current.resolve? name = (Catalog.holder? units name).map NamedUnit.id) ∧
        (∀ name unit, Catalog.holder? units name = some unit → ∃ found,
          current.get? unit.id = some found ∧ current.lookup? name = some found) ∧
        (∀ id, (∀ unit ∈ units, unit.id ≠ id) → current.get? id = none) ∧
        (∀ unit ∈ units, ∀ rate, InForce units actions unit.id rate →
          current.get? unit.id = some { unit with factor := 1 / rate }) ∧
        (∀ unit ∈ units, (∀ rate, ¬ InForce units actions unit.id rate) →
          current.get? unit.id = some unit) ∧
        (∀ rates, (∃ error, current.setRates rates = .error error) ↔
          Catalog.Unacceptable units rates) ∧
        (∀ rates, Catalog.Unacceptable units rates → ∀ others,
          (Workbook.mk current others).next (.setRates rates) = ⟨current, others⟩) := by
  refine ⟨_, Catalog.ofUnits_eq_index distinct, ?_⟩
  rintro pages actions _ rfl
  obtain ⟨factors, listed, tracks⟩ := exists_factors_after distinct named pages actions
  rw [listed]
  refine ⟨List.map_map, Catalog.contains_withFactors distinct,
    Catalog.isCurrency_withFactors distinct, Catalog.resolve?_index units, ?_,
    fun id => Catalog.get?_withFactors_eq_none distinct, ?_, ?_,
    fun _ => Catalog.exists_setRates_eq_error_iff distinct named, ?_⟩
  · intro name unit holds
    have member : unit ∈ units := List.mem_reverse.mp (List.mem_of_find?_eq_some holds)
    have resolved : (Catalog.withFactors units factors).resolve? name = some unit.id := by
      rw [show (Catalog.withFactors units factors).resolve? name = _ from
        Catalog.resolve?_index units name, holds, Option.map_some]
    have found := Catalog.get?_withFactors factors distinct member
    rw [Catalog.lookup?, resolved, Option.bind_some, found]
    cases factors.find? unit.id with
    | none => exact ⟨_, rfl, rfl⟩
    | some factor => exact ⟨_, rfl, rfl⟩
  · intro unit member rate inForce
    have replaced := (tracks unit.id (1 / rate)).mpr ⟨rate, inForce, rfl⟩
    rw [Catalog.get?_withFactors factors distinct member, replaced]
  · intro unit member unrated
    have kept : factors.find? unit.id = none := by
      refine Option.eq_none_iff_forall_ne_some.mpr fun factor found => ?_
      obtain ⟨rate, inForce, _⟩ := (tracks unit.id factor).mp found
      exact unrated rate inForce
    rw [Catalog.get?_withFactors factors distinct member, kept]
  · intro rates refused others
    obtain ⟨error, result⟩ := (Catalog.exists_setRates_eq_error_iff distinct named).mpr refused
    exact next_setRates_of_error result

/-- Of two rates for one currency in the same rates the last one stays in force, also after a
refused attempt to change it: `x` is an alias of two currencies and stands for the second. -/
theorem get?_after_refused_rate : ∃ listed,
    Catalog.ofUnits [⟨"eur", "€", ["x"], "eur", 1, 0⟩, ⟨"usd", "$", ["x"], "eur", 0.84, 0⟩] =
      .ok listed ∧
    ((Workbook.mk listed []).after [.setRates [("eur", 3)], .resetRates,
      .setRates [("usd", 2), ("x", 4)], .setRates [("usd", 8), ("eur", 0)]]).catalog.get? "usd" =
      some ⟨"usd", "$", ["x"], "eur", 1 / 4, 0⟩ := by
  generalize equal : [(⟨"eur", "€", ["x"], "eur", 1, 0⟩ : NamedUnit Float),
    ⟨"usd", "$", ["x"], "eur", 0.84, 0⟩] = units
  have inForce : InForce units [.setRates [("eur", 3)], .resetRates,
      .setRates [("usd", 2), ("x", 4)], .setRates [("usd", 8), ("eur", 0)]] "usd" 4 := by
    subst equal
    refine ⟨[.setRates [("eur", 3)], .resetRates], _, _, rfl, ⟨_, ⟨rfl, by decide +kernel⟩, ?_⟩, ?_⟩
    · exact ⟨[("usd", 2)], _, _, rfl, ⟨by decide, rfl⟩, nofun⟩
    · intro later member
      rw [List.mem_singleton.mp member]
      refine ⟨nofun, ?_⟩
      rintro rates ⟨same, accepted⟩
      cases same
      exact absurd (by decide +kernel) accepted
  have distinct : (units.map NamedUnit.id).Nodup := by subst equal; decide
  have named : ∀ unit ∈ units, unit.id ≠ "" := by subst equal; decide
  obtain ⟨listed, made, history⟩ := catalog_of_history distinct named
  obtain ⟨_, _, _, _, _, _, found, _⟩ := history [] _ _ rfl
  subst equal
  exact ⟨listed, made, found ⟨"usd", "$", ["x"], "eur", 0.84, 0⟩ (by simp) 4 inForce⟩

end Workbook

end UnitSheet
