/-
This file says that a unit is read back from the line on which it is written.

The words of a unit are read as the pieces of a bracket, and these name the powers of the unit
again: a power has its exponent without the sign, and stands on the side of the bar that the sign
says. Powers of different families are merged into themselves, and powers that were in canonical
order are so again. A unit whose symbol is not a name cannot be read back, nor can a unit of its own
whose name stands for another one; `Catalog.Legible` leaves these out and nothing else.
-/

import UnitSheet.Proofs.Acceptance
import UnitSheet.Proofs.Reduced
import UnitSheet.Proofs.Usable
import UnitSheet.Proofs.Words

namespace UnitSheet

open Token (Spells isName meaningful)
open Floating (Holds)

/-! ### Exponents and their signs -/

section Exponents

open Float.Model.UnpackedFloat (Sign)

variable {exponent : Float} {sign : Sign} {exact : ℚ}

theorem isNegative_of_holds (holds : Holds sign exact exponent) :
    Scalar.isNegative exponent = Decimal.isMinus sign := by
  obtain ⟨mantissa, place, positive, finite, rfl⟩ := holds
  show decide (exponent < 0) = _
  cases sign with
  | negative =>
    refine decide_eq_true ?_
    refine decide_eq_true (?_ : (exponent.toModel.unpack.compare (0 : Float).toModel.unpack ==
      some .lt) = true)
    rw [finite]
    rfl
  | positive =>
    refine decide_eq_false (Floating.not_lt_zero_of_signOf ?_)
    rw [finite]
    rfl

/-- A magnitude times one with the sign of the number is the number. -/
theorem abs_mul_sign (holds : Holds sign exact exponent) :
    exponent.abs * (if Decimal.isMinus sign then -1 else 1) = exponent := by
  cases sign with
  | negative =>
    have rounds := holds.abs.rounds_mul Floating.holds_one.neg le_rfl
    rw [mul_one] at rounds
    exact rounds.unique holds.rounds
  | positive =>
    have rounds := holds.abs.rounds_mul Floating.holds_one le_rfl
    rw [mul_one] at rounds
    exact rounds.unique holds.rounds

theorem eq_sign_of_abs_eq_one (holds : Holds sign exact exponent)
    (one : (exponent.abs == 1) = true) : (if Decimal.isMinus sign then -1 else 1) = exponent := by
  have same : exponent.abs = 1 := Decimal.eq_of_beq_of_holds Floating.holds_one one
  rw [← Decimal.signed_abs holds, same]

end Exponents

/-! ### Pieces of a bracket -/

/-- The pieces of a bracket that the tokens of a power are. -/
def UnitPower.atoms (power : UnitPower Float) : List UnitAtom :=
  .named power.unit ::
    if power.exponent.abs == 1 then []
    else [.power, .number (Decimal.formatPlain power.exponent.abs)]

/-- The pieces of a bracket that the tokens of a word are. -/
def UnitWord.atoms : UnitWord → List UnitAtom
  | one => [.number "1"]
  | bar => [.division]
  | power factor => factor.atoms

variable {catalog : Catalog}

theorem mapM_ofToken_power {power : UnitPower Float}
    (resolves : UnitAtom.unitOfName catalog power.unit.symbol = power.unit) :
    power.tokens.mapM (UnitAtom.ofToken catalog) = .ok power.atoms := by
  have literal : UnitAtom.ofToken catalog ⟨.literal, power.unit.symbol⟩ = .ok (.named power.unit) :=
    congrArg (Except.ok ∘ UnitAtom.named) resolves
  rw [UnitPower.tokens, UnitPower.atoms, List.mapM_cons, literal]
  split <;> rfl

theorem mapM_ofToken_words {words : List UnitWord}
    (resolves : ∀ power, .power power ∈ words →
      UnitAtom.unitOfName catalog power.unit.symbol = power.unit) :
    (words.flatMap UnitWord.tokens).mapM (UnitAtom.ofToken catalog) =
      .ok (words.flatMap UnitWord.atoms) := by
  induction words with
  | nil => rfl
  | cons word others inductionHypothesis =>
    have first : word.tokens.mapM (UnitAtom.ofToken catalog) = .ok word.atoms := by
      cases word with
      | one => rfl
      | bar => rfl
      | power power => exact mapM_ofToken_power (resolves power List.mem_cons_self)
    rw [List.flatMap_cons, List.flatMap_cons, List.mapM_append, first,
      inductionHypothesis fun power member => resolves power (List.mem_cons_of_mem _ member)]
    rfl

namespace CompoundUnit

/-- A power that is written is named again, on the side of the bar where it stands. -/
theorem namedPowers_power {power : UnitPower Float} (finite : power.exponent.isFinite = true)
    (nonzero : (power.exponent == 0) = false) (named : List (UnitPower Float))
    (rest : List UnitAtom) : namedPowers power.isBelow named (power.atoms ++ rest) =
      namedPowers power.isBelow (power :: named) rest := by
  obtain ⟨sign, exact, holds⟩ := Floating.exists_holds finite nonzero
  have below : power.isBelow = Decimal.isMinus sign := isNegative_of_holds holds
  rw [UnitPower.atoms, below, List.cons_append, namedPowers]
  by_cases one : (power.exponent.abs == 1) = true
  · rw [if_pos one, eq_sign_of_abs_eq_one holds one]
    rfl
  · have read := Decimal.read?_formatPlain holds.abs.isFinite
    rw [if_neg one, List.cons_append, List.singleton_append, namedPowers, read]
    dsimp only
    rw [abs_mul_sign holds]

theorem namedPowers_powers {below : Bool} {powers : List (UnitPower Float)}
    (each : ∀ power ∈ powers, power.exponent.isFinite = true ∧ (power.exponent == 0) = false)
    (side : ∀ power ∈ powers, power.isBelow = below) (named : List (UnitPower Float))
    (rest : List UnitAtom) : namedPowers below named (powers.flatMap UnitPower.atoms ++ rest) =
      namedPowers below (powers.reverse ++ named) rest := by
  induction powers generalizing named with
  | nil => rfl
  | cons power powers inductionHypothesis =>
    obtain ⟨first, others⟩ := List.forall_mem_cons.mp each
    obtain ⟨here, there⟩ := List.forall_mem_cons.mp side
    subst here
    rw [List.flatMap_cons, List.append_assoc, namedPowers_power first.1 first.2,
      inductionHypothesis others there, List.reverse_cons, List.append_assoc]
    rfl

theorem mergePower_of_fresh {power : UnitPower Float} {families : List (UnitPower Float)}
    (fresh : ∀ known ∈ families, known.unit.family ≠ power.unit.family) :
    mergePower power families = .ok (families ++ [power]) := by
  induction families with
  | nil => rfl
  | cons known families inductionHypothesis =>
    obtain ⟨first, others⟩ := List.forall_mem_cons.mp fresh
    have differs : known.unit.sameFamily power.unit = false := beq_eq_false_iff_ne.mpr first
    rw [mergePower, if_neg (by rw [differs]; exact Bool.false_ne_true),
      inductionHypothesis others]
    rfl

/-- Powers of different families are merged into themselves. -/
theorem foldlM_mergePower {powers : List (UnitPower Float)} (apart : powers.Pairwise Apart) :
    powers.foldlM (fun families power => mergePower power families) [] = .ok powers := by
  induction powers using List.reverseRecOn with
  | nil => rfl
  | append_singleton powers power inductionHypothesis =>
    obtain ⟨before, _, across⟩ := List.pairwise_append.mp apart
    have fresh : mergePower power powers = .ok (powers ++ [power]) :=
      mergePower_of_fresh fun known member => across known member power List.mem_cons_self
    rw [List.foldlM_append, inductionHypothesis before]
    show (mergePower power powers >>= pure) = _
    rw [bind_pure, fresh]

/-- Reduced powers make up a unit in canonical order. -/
theorem ofPowers_of_reduced {unit : CompoundUnit Float} (reduced : unit.Reduced) :
    ofPowers unit.powers = .ok unit.canonical := by
  have kept : unit.powers.filter (fun power => !(power.exponent == 0)) = unit.powers := by
    refine List.filter_eq_self.mpr fun power member => ?_
    rw [reduced.nonzero power member]
    rfl
  rw [ofPowers, foldlM_mergePower reduced.apart]
  show Except.ok (canonical ⟨unit.powers.filter fun power => !(power.exponent == 0)⟩) = _
  rw [kept]

/-! ### Both sides of the bar -/

/-- The words of a unit, before they are written. -/
def layout (unit : CompoundUnit Float) : List UnitWord :=
  let powers := unit.canonical.powers
  let above := powers.takeWhile (!·.isBelow)
  let below := powers.dropWhile (!·.isBelow)
  above.map .power ++
    if below.isEmpty then []
    else (if above.isEmpty then [.one, .bar] else [.bar]) ++ below.map .power

theorem words_eq (unit : CompoundUnit Float) : unit.words = unit.layout.map UnitWord.text := by
  rw [words, layout, List.map_append, List.map_map]
  congr 1
  split
  · rfl
  · rw [List.map_append, List.map_map, barText]
    congr 1
    split <;> rfl

theorem power_mem_of_mem_layout {unit : CompoundUnit Float} {power : UnitPower Float}
    (member : .power power ∈ unit.layout) : power ∈ unit.powers := by
  refine List.mem_mergeSort.mp (show power ∈ unit.canonical.powers from ?_)
  rcases List.mem_append.mp member with above | below
  · obtain ⟨_, inside, same⟩ := List.mem_map.mp above
    cases same
    exact List.takeWhile_subset _ inside
  · split at below
    · cases below
    · rcases List.mem_append.mp below with bar | below
      · split at bar
        · simp at bar
        · simp at bar
      · obtain ⟨_, inside, same⟩ := List.mem_map.mp below
        cases same
        exact (List.dropWhile_sublist _).subset inside

/-- In canonical order nothing is above the bar after the first power below it. -/
theorem isBelow_of_mem_dropWhile {powers : List (UnitPower Float)} {power : UnitPower Float}
    (sorted : powers.Pairwise fun first second => UnitPower.writtenBefore first second = true)
    (member : power ∈ powers.dropWhile (!·.isBelow)) : power.isBelow = true := by
  induction powers with
  | nil => cases member
  | cons first powers inductionHypothesis =>
    obtain ⟨before, sorted⟩ := List.pairwise_cons.mp sorted
    rw [List.dropWhile_cons] at member
    cases side : first.isBelow with
    | false =>
      rw [side, Bool.not_false, if_pos rfl] at member
      exact inductionHypothesis sorted member
    | true =>
      rw [side, Bool.not_true, if_neg Bool.false_ne_true] at member
      rcases List.mem_cons.mp member with rfl | member
      · exact side
      · have written := before power member
        rw [UnitPower.writtenBefore, side] at written
        cases other : power.isBelow with
        | true => rfl
        | false =>
          rw [other] at written
          cases written

theorem flatMap_atoms_power (powers : List (UnitPower Float)) :
    (powers.map UnitWord.power).flatMap UnitWord.atoms = powers.flatMap UnitPower.atoms :=
  List.flatMap_map UnitWord.power UnitWord.atoms powers

/-- Powers above the bar and powers below it are named on their sides. -/
theorem namedPowers_sides {above below : List (UnitPower Float)}
    (each : ∀ power ∈ above ++ below,
      power.exponent.isFinite = true ∧ (power.exponent == 0) = false)
    (isAbove : ∀ power ∈ above, power.isBelow = false)
    (isBelow : ∀ power ∈ below, power.isBelow = true) :
    namedPowers false [] ((above.map UnitWord.power ++
      if below.isEmpty then []
      else (if above.isEmpty then [UnitWord.one, .bar] else [UnitWord.bar]) ++
        below.map UnitWord.power).flatMap UnitWord.atoms) = .ok (above ++ below) := by
  obtain ⟨allAbove, allBelow⟩ := List.forall_mem_append.mp each
  have named := namedPowers_powers allAbove isAbove []
  have after : ∀ earlier, namedPowers true earlier (below.flatMap UnitPower.atoms) =
      .ok (earlier.reverse ++ below) := by
    intro earlier
    have done := namedPowers_powers allBelow isBelow earlier []
    rw [List.append_nil, namedPowers, List.reverse_append, List.reverse_reverse] at done
    exact done
  rw [List.flatMap_append, flatMap_atoms_power, named, List.append_nil]
  cases below with
  | nil =>
    rw [List.isEmpty_nil, if_pos rfl, List.flatMap_nil, namedPowers, List.reverse_reverse,
      List.append_nil]
  | cons first below =>
    rw [List.isEmpty_cons, if_neg Bool.false_ne_true, List.flatMap_append, flatMap_atoms_power]
    cases above with
    | nil =>
      show namedPowers false [] (.number "1" :: .division ::
        (first :: below).flatMap UnitPower.atoms) = _
      rw [namedPowers, if_pos List.isEmpty_nil, namedPowers, if_neg Bool.false_ne_true, after]
      rfl
    | cons head above =>
      show namedPowers false (head :: above).reverse (.division ::
        (first :: below).flatMap UnitPower.atoms) = _
      rw [namedPowers, if_neg Bool.false_ne_true, after, List.reverse_reverse]

/-- The pieces of a written unit name its powers in canonical order. -/
theorem namedPowers_layout {unit : CompoundUnit Float}
    (each : ∀ power ∈ unit.powers,
      power.exponent.isFinite = true ∧ (power.exponent == 0) = false) :
    namedPowers false [] (unit.layout.flatMap UnitWord.atoms) = .ok unit.canonical.powers := by
  have split := @List.takeWhile_append_dropWhile (UnitPower Float) (fun power => !power.isBelow)
    unit.canonical.powers
  have isAbove : ∀ power ∈ unit.canonical.powers.takeWhile fun power => !power.isBelow,
      power.isBelow = false := by
    intro power member
    have side : (!power.isBelow) = true :=
      @List.mem_takeWhile_imp (UnitPower Float) (fun power => !power.isBelow) _ _ member
    rwa [Bool.not_eq_true'] at side
  have named := @namedPowers_sides
    (unit.canonical.powers.takeWhile fun power => !power.isBelow)
    (unit.canonical.powers.dropWhile fun power => !power.isBelow)
    (by
      rw [split]
      exact fun power member => each power (List.mem_mergeSort.mp member))
    isAbove (fun power => isBelow_of_mem_dropWhile (pairwise_writtenBefore unit))
  rw [split] at named
  exact named

end CompoundUnit

/-! ### Names in a catalogue -/

namespace Catalog

/-- A unit that can be typed: one of the catalogue, at the exchange rate in force, with a symbol
that is a name, or a unit of its own with a name that stands for no other. -/
def Legible (catalog : Catalog) (unit : NamedUnit Float) : Prop :=
  (catalog.get? unit.id = some unit ∧ isName unit.symbol = true) ∨
    ∃ name, unit = NamedUnit.custom name ∧ isName name = true ∧ catalog.resolve? name = none

/-- A symbol that can be typed is an alias of its unit, and of no later one. -/
theorem holder?_symbol : ∀ unit ∈ builtinUnits, isName unit.symbol = true →
    (holder? builtinUnits unit.symbol).map NamedUnit.id = some unit.id := by
  decide +kernel

theorem Adjusted.resolve?_eq (history : Adjusted catalog) (name : String) :
    catalog.resolve? name = (holder? builtinUnits name).map NamedUnit.id := by
  rw [resolve?, history.kept.aliases]
  exact resolve?_index builtinUnits name

theorem Legible.isName {unit : NamedUnit Float} (legible : catalog.Legible unit) :
    isName unit.symbol = true := by
  rcases legible with ⟨_, name⟩ | ⟨name, rfl, legible, _⟩
  · exact name
  · exact legible

/-- The symbol of a unit that can be typed stands for it. -/
theorem Adjusted.unitOfName_symbol (history : Adjusted catalog) {unit : NamedUnit Float}
    (legible : catalog.Legible unit) : UnitAtom.unitOfName catalog unit.symbol = unit := by
  rcases legible with ⟨found, name⟩ | ⟨name, rfl, _, unknown⟩
  · obtain ⟨listed, inUnits, equal⟩ := Option.map_eq_some_iff.mp found
    rw [history.kept.units] at inUnits
    obtain ⟨member, sameId⟩ := (find?_units_index nodup_builtinUnits).mp inUnits
    have sameSymbol : listed.symbol = unit.symbol := by
      rw [← equal]
      split <;> rfl
    have resolved : catalog.resolve? unit.symbol = some unit.id := by
      rw [history.resolve?_eq, ← sameSymbol, ← sameId]
      exact holder?_symbol listed member (sameSymbol ▸ name)
    rw [UnitAtom.unitOfName, lookup?, resolved, Option.bind_some, found, Option.getD_some]
  · have missing : catalog.lookup? name = none := by rw [lookup?, unknown, Option.bind_none]
    show (catalog.lookup? name).getD (NamedUnit.custom name) = _
    rw [missing, Option.getD_none]

end Catalog

/-! ### Lines -/

theorem ofLine_of_bracket {vocabulary : Vocabulary} {contents : List Token}
    {atoms : List UnitAtom} {unit : CompoundUnit Float}
    (pieces : contents.mapM (UnitAtom.ofToken vocabulary.catalog) = .ok atoms)
    (given : CompoundUnit.ofAtoms atoms = .ok unit) :
    Node.ofLine vocabulary
      (⟨.number, "1"⟩ :: ⟨.bracket, "["⟩ :: (contents ++ [⟨.bracket, "]"⟩])) =
        .ok (.group "" [.number "1"] unit) := by
  have read : Node.ofTokens vocabulary
      (⟨.number, "1"⟩ :: ⟨.bracket, "["⟩ :: (contents ++ [⟨.bracket, "]"⟩])) =
        .ok (.group "" [.number "1"] unit) := by
    have bracket := Reading.foldlM_bracket pieces given [.number "1"] CompoundUnit.empty []
    rw [Node.ofTokens, List.foldlM_cons, Reading.step_number vocabulary rfl]
    show (List.foldlM (Reading.step vocabulary) ⟨⟨[.number "1"], CompoundUnit.empty, []⟩, [], none⟩
      _ >>= Reading.finish) = _
    rw [bracket]
    rfl
  rw [Node.ofLine, List.isEmpty_cons, if_neg Bool.false_ne_true, read]
  rfl

/-- A unit is read back from a line on which it is written in brackets after a number. -/
theorem CompoundUnit.ofLine_text (history : catalog.Adjusted) (names : List String)
    {unit : CompoundUnit Float} (ordered : unit.canonical = unit) (reduced : unit.Reduced)
    (each : ∀ power ∈ unit.powers, power.exponent.isFinite = true ∧ catalog.Legible power.unit) :
    ∃ tokens, Token.ofLine false ("1 [" ++ unit.text ++ "]") = .ok tokens ∧
      Node.ofLine ⟨names, catalog⟩ (meaningful tokens) = .ok (.group "" [.number "1"] unit) := by
  have spells : ∀ word ∈ unit.layout, Spells word.text word.tokens := by
    intro word member
    cases word with
    | one => exact spells_one
    | bar => exact spells_bar
    | power power =>
      have inside := power_mem_of_mem_layout member
      exact spells_power (each power inside).2.isName (each power inside).1
        (reduced.nonzero power inside)
  have pieces : (unit.layout.flatMap UnitWord.tokens).mapM (UnitAtom.ofToken catalog) =
      .ok (unit.layout.flatMap UnitWord.atoms) :=
    mapM_ofToken_words fun power member =>
      history.unitOfName_symbol (each power (power_mem_of_mem_layout member)).2
  have given : ofAtoms (unit.layout.flatMap UnitWord.atoms) = .ok unit := by
    rw [ofAtoms, namedPowers_layout fun power member =>
      ⟨(each power member).1, reduced.nonzero power member⟩, ordered]
    show ofPowers unit.powers = _
    rw [ofPowers_of_reduced reduced, ordered]
  obtain ⟨tokens, cut, meaning⟩ := exists_tokens_of_spells spells
  rw [← words_eq] at cut
  refine ⟨tokens, cut, ?_⟩
  rw [meaning]
  exact ofLine_of_bracket pieces given

/-- A line with a currency at an exchange rate, a unit of its own and a unit below the bar. -/
theorem CompoundUnit.ofLine_text_of_currency : ∃ cad second : NamedUnit Float,
    (Workbook.initial.after [.setRates [("cad", 1.5)]]).catalog.get? "cad" = some cad ∧
    (Workbook.initial.after [.setRates [("cad", 1.5)]]).catalog.get? "second" = some second ∧
    ∃ tokens, Token.ofLine false "1 [CAD^0.5 widget / s^2]" = .ok tokens ∧
      Node.ofLine ⟨[], (Workbook.initial.after [.setRates [("cad", 1.5)]]).catalog⟩
        (meaningful tokens) = .ok (.group "" [.number "1"]
          ⟨[⟨cad, 0.5⟩, ⟨NamedUnit.custom "widget", 1⟩, ⟨second, -2⟩]⟩) := by
  have inCurrencies : Catalog.scaled Catalog.currencyFamily "cad" "CAD" ["cad", "CAD"] 0.67 ∈
      Catalog.builtinUnits := by
    simp [Catalog.builtinUnits, Catalog.currencyUnits]
  have inTimes : Catalog.scaled "second" "second" "s" ["s", "second", "seconds"] 1 ∈
      Catalog.builtinUnits := by
    simp [Catalog.builtinUnits, Catalog.timeUnits]
  have accepted : ¬ Catalog.Unacceptable Catalog.builtinUnits [("cad", 1.5)] := by decide +kernel
  have key : Catalog.ratedId Catalog.builtinUnits "cad" = "cad" := by decide +kernel
  have foundCad := Workbook.get?_after_rate [] inCurrencies accepted key
  have history := Workbook.adjusted_after [.setRates [("cad", 1.5)]]
  have notCurrency : Catalog.builtin.isCurrency "second" = false := by decide +kernel
  have foundSecond := (history.get?_eq_of_not_currency notCurrency).trans
    (Catalog.get?_withFactors Table.empty Catalog.nodup_builtinUnits inTimes)
  rw [List.nil_append] at foundCad
  generalize (Workbook.initial.after [.setRates [("cad", 1.5)]]).catalog = catalog at *
  refine ⟨_, _, foundCad, foundSecond, ?_⟩
  have unknown : catalog.resolve? "widget" = none := by
    rw [history.resolve?_eq]
    decide +kernel
  generalize listed : ([⟨_, 0.5⟩, ⟨NamedUnit.custom "widget", 1⟩, ⟨_, -2⟩] :
    List (UnitPower Float)) = powers
  have ordered : CompoundUnit.canonical ⟨powers⟩ = ⟨powers⟩ := by
    have sorted : powers.Pairwise fun first second =>
        UnitPower.writtenBefore first second = true := by
      subst listed
      decide +kernel
    exact congrArg CompoundUnit.mk (List.mergeSort_of_pairwise sorted)
  have reduced : CompoundUnit.Reduced ⟨powers⟩ := by
    subst listed
    exact ⟨by simp [CompoundUnit.Apart, NamedUnit.custom, Catalog.scaled, Catalog.currencyFamily],
      by decide +kernel⟩
  have each : ∀ power ∈ powers,
      power.exponent.isFinite = true ∧ catalog.Legible power.unit := by
    subst listed
    simp only [List.forall_mem_cons, List.not_mem_nil, false_implies, implies_true, and_true]
    exact ⟨⟨by decide +kernel, .inl ⟨foundCad, by decide +kernel⟩⟩,
      ⟨by decide +kernel, .inr ⟨"widget", rfl, by decide +kernel, unknown⟩⟩,
      by decide +kernel, .inl ⟨foundSecond, by decide +kernel⟩⟩
  have text : "1 [" ++ CompoundUnit.text ⟨powers⟩ ++ "]" = "1 [CAD^0.5 widget / s^2]" := by
    rw [CompoundUnit.text, CompoundUnit.words, ordered]
    subst listed
    decide +kernel
  have line := CompoundUnit.ofLine_text history [] ordered reduced each
  rwa [text] at line

end UnitSheet
