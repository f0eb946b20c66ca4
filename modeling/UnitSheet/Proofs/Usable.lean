/-
This file says which exchange rates leave the factors of a catalogue usable.

A rate is accepted unless it is zero or less, and the factor of its currency is the reciprocal. A
rate that is not a number is not zero or less either, and its reciprocal is not a number; that of an
infinite rate is zero, and that of a rate which is too small is infinite. All other rates that are
accepted have a reciprocal that is finite and above zero, so that after any history a unit has a
usable factor exactly if the rate in force for it, should there be one, is none of these.
-/

import UnitSheet.Proofs.Exact
import UnitSheet.Proofs.History

namespace UnitSheet

namespace Floating

open Float.Model

variable {rate : Float}

/-! ### Rates of which the reciprocal can be used -/

/-- A factor that values can be converted with: a finite number above zero. -/
def Usable (factor : Float) : Prop :=
  factor.isFinite = true ∧ 0 < factor

instance (factor : Float) : Decidable (Usable factor) :=
  inferInstanceAs (Decidable (_ ∧ _))

/-- The greatest positive number of which the reciprocal is infinite. -/
def unusableRate : Float :=
  .ofBits 0x0004000000000000

theorem holds_unusableRate : Holds .positive (2 ^ (-1024 : ℤ)) unusableRate := by
  refine ⟨2 ^ 50, -1074, by decide, rfl, ?_⟩
  rw [scaled, Nat.cast_pow, Nat.cast_ofNat, pow_mul_zpow]
  rfl

/-- What a number is that is not zero or less. -/
theorem unpack_of_not_le_zero (above : ¬ rate ≤ 0) : rate.toModel.unpack = .notANumber ∨
    rate.toModel.unpack = .infinity .positive ∨ ∃ exact, Holds .positive exact rate := by
  have positive := signOf_of_not_le_zero above
  cases equal : rate.toModel.unpack with
  | notANumber => exact .inl rfl
  | infinity sign =>
    rw [equal] at positive
    cases positive
    exact .inr (.inl rfl)
  | zero sign =>
    refine absurd ?_ above
    refine decide_eq_true (?_ : ((rate.toModel.unpack.compare (0 : Float).toModel.unpack).any
      (·.isLE)) = true)
    rw [unpack_zero, equal]
    rfl
  | finite sign mantissa exponent some =>
    rw [equal] at positive
    cases positive
    exact .inr (.inr ⟨_, mantissa, exponent, some, equal, rfl⟩)

theorem reciprocal_bound_iff (units : ℕ) :
    (2 : ℚ) ^ 104 < units * (2 ^ 54 - 1) ↔ (2 : ℚ) ^ 50 < units := by
  have left : (2 : ℚ) ^ 104 + units < units * 2 ^ 54 ↔ 2 ^ 104 + units < units * 2 ^ 54 := by
    exact_mod_cast Iff.rfl
  have right : (2 : ℚ) ^ 50 < units ↔ 2 ^ 50 < units := by exact_mod_cast Iff.rfl
  rw [mul_sub_one, lt_sub_iff_add_lt, left, right]
  omega

/-- The exact reciprocal of a multiple of the least number is not too great exactly when that
multiple is above the greatest unusable number. -/
theorem one_div_lt_iff {units : ℕ} (positive : (0 : ℚ) < units * 2 ^ (-1074 : ℤ)) :
    1 / (units * 2 ^ (-1074 : ℤ) : ℚ) < 2 ^ (1024 : ℤ) - 2 ^ (970 : ℤ) ↔
      2 ^ (-1024 : ℤ) < (units * 2 ^ (-1074 : ℤ) : ℚ) := by
  have least : (0 : ℚ) < 2 ^ (-1074 : ℤ) := zpow_pos two_pos _
  have place : (0 : ℚ) < 2 ^ (-104 : ℤ) := zpow_pos two_pos _
  have one : (2 : ℚ) ^ 104 * 2 ^ (-104 : ℤ) = 1 := by
    rw [pow_mul_zpow]
    exact zpow_zero 2
  have small : (2 : ℚ) ^ 50 * 2 ^ (-1074 : ℤ) = 2 ^ (-1024 : ℤ) := by
    rw [pow_mul_zpow]
    norm_num
  have great : ((2 : ℚ) ^ (1024 : ℤ) - 2 ^ (970 : ℤ)) * 2 ^ (-1074 : ℤ) =
      (2 ^ 54 - 1) * 2 ^ (-104 : ℤ) := by
    have high : (2 : ℚ) ^ 54 * 2 ^ (970 : ℤ) = 2 ^ (1024 : ℤ) := pow_mul_zpow 54 970
    have low : (2 : ℚ) ^ (970 : ℤ) * 2 ^ (-1074 : ℤ) = 2 ^ (-104 : ℤ) :=
      (zpow_add₀ two_ne_zero 970 (-1074)).symm
    rw [← high, ← sub_one_mul, mul_assoc, low]
  rw [div_lt_iff₀ positive, mul_left_comm, great, ← small, mul_lt_mul_iff_left₀ least]
  calc (1 : ℚ) < units * ((2 ^ 54 - 1) * (2 : ℚ) ^ (-104 : ℤ))
      ↔ (2 : ℚ) ^ 104 * 2 ^ (-104 : ℤ) < units * (2 ^ 54 - 1) * 2 ^ (-104 : ℤ) := by
        rw [one, mul_assoc]
    _ ↔ (2 : ℚ) ^ 104 < units * (2 ^ 54 - 1) := mul_lt_mul_iff_left₀ place
    _ ↔ (2 : ℚ) ^ 50 < units := reciprocal_bound_iff units

/-- The reciprocal of a number that is not zero or less is finite and above zero exactly when the
number is finite and not so small that its reciprocal is too great. -/
theorem usable_one_div_iff (above : ¬ rate ≤ 0) :
    Usable (1 / rate) ↔ rate.isFinite = true ∧ unusableRate < rate := by
  have reciprocal : 1 / rate = .ofModel (.pack (UnpackedFloat.div Format.binary64
      (1 : Float).toModel.unpack rate.toModel.unpack)) := rfl
  have finiteness : rate.isFinite = rate.toModel.unpack.isFinite := rfl
  rcases unpack_of_not_le_zero above with undefined | infinite | ⟨exact, holds⟩
  · rw [Usable, reciprocal, finiteness, undefined]
    exact iff_of_false (fun usable => absurd usable.1 (by decide +kernel)) nofun
  · rw [Usable, reciprocal, finiteness, infinite]
    exact iff_of_false (fun usable => absurd usable.2 (by decide +kernel)) nofun
  · have rounds : Rounds .positive (1 / exact) (1 / rate) := holds_one.rounds_div holds
    have some : 2 ^ (-1074 : ℤ) ≤ 1 / exact := by
      rw [le_div_iff₀ holds.pos]
      refine le_trans (mul_le_mul_of_nonneg_left holds.lt_zpow.le (zpow_pos two_pos _).le) ?_
      rw [← zpow_add₀ two_ne_zero]
      exact zpow_le_one_of_nonpos₀ one_le_two (by decide)
    rw [Usable, rounds.isFinite_iff (one_div_pos.mpr holds.pos), holds_unusableRate.lt_iff holds]
    simp only [rounds.zero_lt some, holds.isFinite, and_true, true_and]
    obtain ⟨units, rfl⟩ := holds.exists_units
    exact one_div_lt_iff holds.pos

end Floating

open Floating (Usable unusableRate)

namespace Catalog

/-- The catalogue gives a unit for an id or for an alias. -/
def HandsOut (catalog : Catalog) (unit : NamedUnit Float) : Prop :=
  ∃ key, catalog.get? key = some unit ∨ catalog.lookup? key = some unit

theorem handsOut_of_get? {catalog : Catalog} {id : String} {unit : NamedUnit Float}
    (found : catalog.get? id = some unit) : catalog.HandsOut unit :=
  ⟨id, .inl found⟩

/-- What is found by alias is found by id. -/
theorem exists_get?_of_handsOut {catalog : Catalog} {unit : NamedUnit Float}
    (given : catalog.HandsOut unit) : ∃ id, catalog.get? id = some unit := by
  obtain ⟨key, found | found⟩ := given
  · exact ⟨key, found⟩
  · obtain ⟨id, _, found⟩ := Option.bind_eq_some_iff.mp found
    exact ⟨id, found⟩

variable {units : List (NamedUnit Float)} {factors : Table Float} {found : NamedUnit Float}

/-- A unit that is found is a listed one, with its own factor or another one. -/
theorem exists_listed_of_get? (distinct : (units.map NamedUnit.id).Nodup) {id : String}
    (atId : (withFactors units factors).get? id = some found) :
    ∃ unit ∈ units, found.id = unit.id ∧
      found.factor = (factors.find? unit.id).getD unit.factor := by
  have listed : ∃ unit ∈ units, unit.id = id := by
    by_contra absent
    rw [get?_withFactors_eq_none distinct fun unit member same => absent ⟨unit, member, same⟩]
      at atId
    cases atId
  obtain ⟨unit, member, rfl⟩ := listed
  refine ⟨unit, member, ?_⟩
  rw [get?_withFactors factors distinct member] at atId
  cases replaced : factors.find? unit.id with
  | none =>
    rw [replaced] at atId
    cases atId
    exact ⟨rfl, rfl⟩
  | some factor =>
    rw [replaced] at atId
    cases atId
    exact ⟨rfl, rfl⟩

theorem nodup_builtinUnits : (builtinUnits.map NamedUnit.id).Nodup := by
  decide +kernel

theorem named_builtinUnits : ∀ unit ∈ builtinUnits, unit.id ≠ "" := by
  decide +kernel

theorem usable_of_mem_builtinUnits : ∀ unit ∈ builtinUnits, Usable unit.factor := by
  decide +kernel

/-- The built-in dollar. -/
def dollar : NamedUnit Float :=
  scaled currencyFamily "usd" "$" ["$", "usd", "USD"] 0.84

theorem dollar_mem_builtinUnits : dollar ∈ builtinUnits := by
  simp [builtinUnits, currencyUnits, dollar]

end Catalog

namespace Workbook

variable {units : List (NamedUnit Float)} {actions : List Action} {id : String} {rate : Float}
  {factors : Table Float}

/-- A rate in force has been accepted. -/
theorem InForce.not_le_zero (inForce : InForce units actions id rate) : ¬ rate ≤ 0 := by
  obtain ⟨_, action, _, _, ⟨rates, ⟨_, accepted⟩, last⟩, _⟩ := inForce
  obtain ⟨before, entry, after, rfl, ⟨_, rfl⟩, _⟩ := last
  exact fun refused => accepted ⟨entry, by simp, .inr refused⟩

/-- A listed unit has a usable factor exactly if the rate in force for it leaves one. -/
theorem Tracks.usable_iff (tracks : Tracks units actions factors) {factor : Float}
    (own : Usable factor) : Usable ((factors.find? id).getD factor) ↔
      ∀ rate, InForce units actions id rate → rate.isFinite = true ∧ unusableRate < rate := by
  cases replaced : factors.find? id with
  | none =>
    refine iff_of_true own fun rate inForce => ?_
    rw [(tracks id _).mpr ⟨rate, inForce, rfl⟩] at replaced
    cases replaced
  | some other =>
    rw [Option.getD_some]
    obtain ⟨rate, inForce, rfl⟩ := (tracks id other).mp replaced
    constructor
    · intro usable another also
      -- One factor is in force, though not one rate: different rates may have one reciprocal.
      have same := replaced.symm.trans ((tracks id _).mpr ⟨another, also, rfl⟩)
      rw [Option.some_inj.mp same] at usable
      exact (Floating.usable_one_div_iff also.not_le_zero).mp usable
    · intro all
      exact (Floating.usable_one_div_iff inForce.not_le_zero).mpr (all rate inForce)

theorem lastRate_singleton_iff {key : String} {last : Float} :
    Catalog.LastRate units [(key, last)] id rate ↔
      Catalog.ratedId units key = id ∧ last = rate := by
  have split : [(key, last)] = [] ++ [(key, last)] := rfl
  rw [Catalog.LastRate, split, prevails_concat]
  simp [not_prevails_nil]

theorem exists_factors_after_initial (actions : List Action) :
    ∃ factors, (initial.after actions).catalog =
      Catalog.withFactors Catalog.builtinUnits factors ∧
        Tracks Catalog.builtinUnits actions factors :=
  exists_factors_after Catalog.nodup_builtinUnits Catalog.named_builtinUnits [] actions

/-- A unit for which a rate has just been accepted has its reciprocal as factor. -/
theorem get?_after_rate (actions : List Action) {unit : NamedUnit Float} {key : String}
    (member : unit ∈ Catalog.builtinUnits)
    (accepted : ¬ Catalog.Unacceptable Catalog.builtinUnits [(key, rate)])
    (same : Catalog.ratedId Catalog.builtinUnits key = unit.id) :
    (initial.after (actions ++ [.setRates [(key, rate)]])).catalog.get? unit.id =
      some { unit with factor := 1 / rate } := by
  obtain ⟨factors, current, tracks⟩ :=
    exists_factors_after_initial (actions ++ [.setRates [(key, rate)]])
  have inForce : InForce Catalog.builtinUnits (actions ++ [.setRates [(key, rate)]]) unit.id rate :=
    (inForce_concat_of_sets accepted).mpr (.inl (lastRate_singleton_iff.mpr ⟨same, rfl⟩))
  rw [current, Catalog.get?_withFactors factors Catalog.nodup_builtinUnits member,
    (tracks unit.id _).mpr ⟨rate, inForce, rfl⟩]

/-- After any actions, a unit that the built-in catalogue gives has a finite factor above zero
exactly if the exchange rate in force for it, should there be one, is a finite number that is great
enough for its reciprocal to be finite. -/
theorem usable_of_history_iff (actions : List Action) {unit : NamedUnit Float}
    (given : (initial.after actions).catalog.HandsOut unit) :
    Usable unit.factor ↔ ∀ rate, InForce Catalog.builtinUnits actions unit.id rate →
      rate.isFinite = true ∧ unusableRate < rate := by
  obtain ⟨factors, current, tracks⟩ := exists_factors_after_initial actions
  obtain ⟨id, found⟩ := Catalog.exists_get?_of_handsOut given
  rw [current] at found
  obtain ⟨own, member, sameId, sameFactor⟩ :=
    Catalog.exists_listed_of_get? Catalog.nodup_builtinUnits found
  rw [sameId, sameFactor]
  exact tracks.usable_iff (Catalog.usable_of_mem_builtinUnits own member)

/-- A rate that is not a number is accepted and spoils a factor, which the next rate mends. -/
theorem usable_after_second_rate : ∃ unit, (initial.after
    ([.setRates [("usd", 0 / 0)]] ++ [.setRates [("$", 2)]])).catalog.HandsOut unit ∧
      unit.id = "usd" ∧ Usable unit.factor := by
  have accepted : ¬ Catalog.Unacceptable Catalog.builtinUnits [("$", 2)] := by decide +kernel
  have key : Catalog.ratedId Catalog.builtinUnits "$" = "usd" := by decide +kernel
  have found := get?_after_rate [.setRates [("usd", 0 / 0)]] Catalog.dollar_mem_builtinUnits
    accepted key
  have given := Catalog.handsOut_of_get? found
  refine ⟨_, given, rfl, (usable_of_history_iff _ given).mpr fun rate inForce => ?_⟩
  rcases (inForce_concat_of_sets accepted).mp inForce with last | ⟨_, unrated⟩
  · rw [← (lastRate_singleton_iff.mp last).2]
    decide +kernel
  · exact absurd key (unrated ("$", 2) (by simp))

/-- Neither a rate that is not a number nor one that is infinite is refused, and both leave a factor
that is not a finite number above zero. -/
theorem exists_unusable_after_rates :
    (∃ unit, (initial.after [.setRates [("usd", 0 / 0)]]).catalog.get? "usd" = some unit ∧
      ¬ Usable unit.factor) ∧
    ∃ unit, (initial.after [.setRates [("usd", 1 / 0)]]).catalog.get? "usd" = some unit ∧
      ¬ Usable unit.factor := by
  have key : Catalog.ratedId Catalog.builtinUnits "usd" = "usd" := by decide +kernel
  have undefined := get?_after_rate [] Catalog.dollar_mem_builtinUnits
    (show ¬ Catalog.Unacceptable _ [("usd", 0 / 0)] by decide +kernel) key
  have infinite := get?_after_rate [] Catalog.dollar_mem_builtinUnits
    (show ¬ Catalog.Unacceptable _ [("usd", 1 / 0)] by decide +kernel) key
  exact ⟨⟨_, undefined, by decide +kernel⟩, _, infinite, by decide +kernel⟩

end Workbook

end UnitSheet
