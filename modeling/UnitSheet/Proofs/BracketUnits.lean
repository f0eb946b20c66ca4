/-
This file says which unit a bracket of the documented form has.

A bracket is read into one power for each of its names, whose exponent is negated below the bar
(`ofContents_tokens`); the number in front is not looked at. These powers are merged, and names of
one family that are not the same unit are refused. In a catalogue with a history two names have
units of one family and one id only if they have the same unit
(`Catalog.Adjusted.unitOfName_of_id`).
-/

import UnitSheet.Proofs.Brackets

namespace UnitSheet

/-! ### Exponents and their signs -/

namespace Floating

open Float.Model
open Float.Model.UnpackedFloat (Sign)

/-- Zeros, infinities and what is no number only take the sign of a factor. -/
theorem mul_special {unpacked : UnpackedFloat} (extra : Sign) (mantissa : ℕ) (place : ℤ)
    (positive : 0 < mantissa)
    (special : ∀ sign other shift some, unpacked ≠ .finite sign other shift some) :
    UnpackedFloat.mul Format.binary64 unpacked (.finite extra mantissa place positive) =
      if Decimal.isMinus extra then unpacked.neg else unpacked := by
  cases unpacked with
  | notANumber => cases extra <;> rfl
  | infinity sign | zero sign => cases extra <;> cases sign <;> rfl
  | finite sign other shift some => exact absurd rfl (special sign other shift some)

/-- The product with one or minus one. -/
theorem mul_signed_one {factor : Float} {extra : Sign} (one : Holds extra 1 factor)
    (value : Float) : value * factor = if Decimal.isMinus extra then -value else value := by
  obtain ⟨unit, shift, some, known, _⟩ := id one
  cases unpacked : value.toModel.unpack with
  | finite sign mantissa place positive =>
    have holds : Holds sign _ value := ⟨mantissa, place, positive, unpacked, rfl⟩
    have rounds := holds.rounds_mul one le_rfl
    rw [mul_one] at rounds
    cases extra with
    | positive => cases sign <;> exact rounds.unique holds.rounds
    | negative => cases sign <;> exact rounds.unique holds.neg.rounds
  | notANumber | infinity sign | zero sign =>
    have product : value * factor = .ofModel (.pack (UnpackedFloat.mul Format.binary64
      value.toModel.unpack factor.toModel.unpack)) := rfl
    rw [product, known, mul_special extra unit shift some (by rw [unpacked]; nofun)]
    split
    · rfl
    · exact ofModel_pack_unpack value

theorem times_one (value : Float) : value * 1 = value :=
  mul_signed_one holds_one value

theorem times_neg_one (value : Float) : value * -1 = -value :=
  mul_signed_one holds_one.neg value

end Floating

/-! ### Names of one unit -/

namespace Catalog

variable {catalog : Catalog}

/-- Every id is an alias. -/
theorem exists_holder? {unit : NamedUnit Float} (member : unit ∈ builtinUnits) :
    ∃ holder, holder? builtinUnits unit.id = some holder := by
  have own : ∀ unit ∈ builtinUnits, unit.aliases.contains unit.id = true := by decide +kernel
  refine Option.isSome_iff_exists.mp (List.find?_isSome.mpr ⟨unit, ?_, own unit member⟩)
  exact List.mem_reverse.mpr member

/-- A unit that is found by a name is found by its id, which is an alias too. -/
theorem Adjusted.get?_of_lookup? (history : Adjusted catalog) {name : String}
    {unit : NamedUnit Float} (found : catalog.lookup? name = some unit) :
    catalog.get? unit.id = some unit ∧ ∃ id, catalog.resolve? unit.id = some id := by
  obtain ⟨id, _, found⟩ := Option.bind_eq_some_iff.mp found
  obtain ⟨listed, inUnits, equal⟩ := Option.map_eq_some_iff.mp found
  rw [history.kept.units] at inUnits
  obtain ⟨member, sameId⟩ := (find?_units_index nodup_builtinUnits).mp inUnits
  have kept : unit.id = id := by
    rw [← equal, ← sameId]
    split <;> rfl
  obtain ⟨holder, held⟩ := exists_holder? member
  rw [kept]
  refine ⟨found, holder.id, ?_⟩
  rw [history.resolve?_eq, ← sameId, held]
  rfl

/-- Names that stand for units of one id stand for one unit. -/
theorem Adjusted.unitOfName_of_id (history : Adjusted catalog) {first second : String}
    (same : (UnitAtom.unitOfName catalog first).id = (UnitAtom.unitOfName catalog second).id) :
    UnitAtom.unitOfName catalog first = UnitAtom.unitOfName catalog second := by
  -- A unit of its own has its name for its id, and this name is not an alias.
  have apart {name other : String} {unit : NamedUnit Float}
      (found : catalog.lookup? name = some unit) (unknown : catalog.lookup? other = none) :
      unit.id ≠ other := by
    rintro rfl
    obtain ⟨id, resolved⟩ := (history.get?_of_lookup? found).2
    obtain ⟨known, atId⟩ := history.exists_get? resolved
    rw [lookup?, resolved, Option.bind_some, atId] at unknown
    cases unknown
  rw [UnitAtom.unitOfName, UnitAtom.unitOfName] at same ⊢
  cases left : catalog.lookup? first with
  | none =>
    cases right : catalog.lookup? second with
    | none =>
      rw [left, right] at same
      exact congrArg NamedUnit.custom same
    | some unit =>
      rw [left, right] at same
      exact absurd same.symm (apart right left)
  | some unit =>
    cases right : catalog.lookup? second with
    | none =>
      rw [left, right] at same
      exact absurd same (apart left right)
    | some other =>
      rw [left, right] at same
      have found := (history.get?_of_lookup? left).1
      have also := (history.get?_of_lookup? right).1
      rw [show unit.id = other.id from same, also] at found
      exact (Option.some.inj found).symm

end Catalog

namespace Bracket

open CompoundUnit (ofContents ofPowers namedPowers Unmixed Apart InOrder exponentsOf inOrderSum)

/-! ### The powers of the names -/

/-- The exponent of a name: one where none is written. -/
def Atom.exponent? (atom : Atom) : Option Float :=
  match atom.exponent with
  | none => some 1
  | some text => Decimal.read? text

/-- The unit of a name. -/
def Atom.unit (catalog : Catalog) (atom : Atom) : NamedUnit Float :=
  UnitAtom.unitOfName catalog atom.name

/-- The exponent of a name on its side of the bar. -/
def Atom.signed? (below : Bool) (atom : Atom) : Option Float :=
  atom.exponent?.map fun exponent => if below then -exponent else exponent

/-- The names of a bracket. -/
def atoms (bracket : Bracket) : List Atom :=
  bracket.above ++ bracket.below.getD []

/-- The exponents of the names of a family on one side of the bar. -/
def exponentsOn (catalog : Catalog) (family : String) (below : Bool) (atoms : List Atom) :
    List Float :=
  (atoms.filter fun atom => (atom.unit catalog).family == family).filterMap (Atom.signed? below)

/-- The exponents of the names of a family, in order; below the bar they are negated. -/
def exponents (catalog : Catalog) (family : String) (bracket : Bracket) : List Float :=
  exponentsOn catalog family false bracket.above ++
    exponentsOn catalog family true (bracket.below.getD [])

/-- The power of a name on its side of the bar. -/
def Atom.power (catalog : Catalog) (below : Bool) (atom : Atom) :
    Except ParseError (UnitPower Float) :=
  match atom.signed? below with
  | some exponent => .ok ⟨atom.unit catalog, exponent⟩
  | none => .error (.exponentInvalid (atom.exponent.getD ""))

variable {catalog : Catalog} {below : Bool} {atoms : List Atom} {powers : List (UnitPower Float)}

theorem Atom.power_eq_ok_iff {atom : Atom} {power : UnitPower Float} :
    atom.power catalog below = .ok power ↔
      atom.signed? below = some power.exponent ∧ power.unit = atom.unit catalog := by
  obtain ⟨unit, exponent⟩ := power
  rw [Atom.power]
  cases atom.signed? below with
  | none => simp
  | some known => simp [eq_comm, and_comm]

theorem exists_powers_of_atoms_iff :
    (∃ powers, atoms.mapM (Atom.power catalog below) = .ok powers) ↔
      ∀ atom ∈ atoms, atom.exponent? ≠ none := by
  refine exists_mapM_iff.trans (forall₂_congr fun atom _ => ?_)
  rw [Atom.power, Atom.signed?]
  cases atom.exponent? <;> simp

theorem units_of_atoms (equal : atoms.mapM (Atom.power catalog below) = .ok powers) :
    powers.map UnitPower.unit = atoms.map (Atom.unit catalog) := by
  induction atoms generalizing powers with
  | nil =>
    cases equal
    rfl
  | cons atom atoms inductionHypothesis =>
    rw [List.mapM_cons] at equal
    obtain ⟨power, own, equal⟩ := bind_eq_ok.mp equal
    obtain ⟨others, rest, equal⟩ := bind_eq_ok.mp equal
    cases equal
    rw [List.map_cons, List.map_cons, inductionHypothesis rest, (Atom.power_eq_ok_iff.mp own).2]

theorem exponentsOf_atoms (equal : atoms.mapM (Atom.power catalog below) = .ok powers)
    (family : String) : exponentsOf family powers = exponentsOn catalog family below atoms := by
  induction atoms generalizing powers with
  | nil =>
    cases equal
    rfl
  | cons atom atoms inductionHypothesis =>
    rw [List.mapM_cons] at equal
    obtain ⟨power, own, equal⟩ := bind_eq_ok.mp equal
    obtain ⟨others, rest, equal⟩ := bind_eq_ok.mp equal
    cases equal
    obtain ⟨signed, unit⟩ := Atom.power_eq_ok_iff.mp own
    have tail := inductionHypothesis rest
    rw [exponentsOf, exponentsOn] at tail ⊢
    rw [List.filter_cons, List.filter_cons, unit]
    split
    · rw [List.map_cons, List.filterMap_cons, signed, tail]
    · exact tail

/-! ### Reading -/

/-- The pieces that the tokens of a name are. -/
def Atom.pieces (catalog : Catalog) (atom : Atom) : List UnitAtom :=
  .named (atom.unit catalog) ::
    match atom.exponent with
    | none => []
    | some text => [.power, .number text]

theorem mapM_ofToken_atoms (catalog : Catalog) (atoms : List Atom) :
    (atoms.flatMap Atom.tokens).mapM (UnitAtom.ofToken catalog) =
      .ok (atoms.flatMap (Atom.pieces catalog)) := by
  induction atoms with
  | nil => rfl
  | cons atom atoms inductionHypothesis =>
    have own : atom.tokens.mapM (UnitAtom.ofToken catalog) = .ok (atom.pieces catalog) := by
      rw [Atom.tokens, Atom.pieces]
      cases atom.exponent <;> rfl
    rw [List.flatMap_cons, List.flatMap_cons, List.mapM_append, own, inductionHypothesis]
    rfl

/-- The pieces of a name give its power. -/
theorem namedPowers_atom (atom : Atom) (named : List (UnitPower Float)) (rest : List UnitAtom) :
    namedPowers below named (atom.pieces catalog ++ rest) =
      atom.power catalog below >>= fun power => namedPowers below (power :: named) rest := by
  rw [Atom.pieces, List.cons_append, namedPowers, Atom.power, Atom.signed?, Atom.exponent?]
  cases atom.exponent with
  | none =>
    cases below <;> rfl
  | some text =>
    rw [List.cons_append, List.singleton_append, namedPowers]
    dsimp only
    cases Decimal.read? text with
    | none => rfl
    | some exponent =>
      dsimp only
      cases below with
      | false => rw [if_neg Bool.false_ne_true, Floating.times_one]; rfl
      | true => rw [if_pos rfl, Floating.times_neg_one]; rfl

theorem namedPowers_atoms (atoms : List Atom) (named : List (UnitPower Float))
    (rest : List UnitAtom) :
    namedPowers below named (atoms.flatMap (Atom.pieces catalog) ++ rest) =
      atoms.mapM (Atom.power catalog below) >>= fun powers =>
        namedPowers below (powers.reverse ++ named) rest := by
  induction atoms generalizing named with
  | nil => rfl
  | cons atom atoms inductionHypothesis =>
    rw [List.flatMap_cons, List.append_assoc, namedPowers_atom, List.mapM_cons, bind_assoc]
    refine bind_congr fun power => ?_
    rw [inductionHypothesis, bind_assoc]
    refine bind_congr fun powers => ?_
    rw [pure_bind, List.reverse_cons, List.append_assoc, List.singleton_append]

/-- A bracket of the documented form has the unit that the powers of its names are merged into. -/
theorem ofContents_tokens (catalog : Catalog) (bracket : Bracket) :
    ofContents catalog bracket.tokens =
      bracket.above.mapM (Atom.power catalog false) >>= fun above =>
        (bracket.below.getD []).mapM (Atom.power catalog true) >>= fun below =>
          ofPowers (above ++ below) := by
  obtain ⟨number, above, below⟩ := bracket
  -- The number is skipped, since no name has been read before it.
  have skipped (rest : List UnitAtom) :
      namedPowers false [] (number.toList.map UnitAtom.number ++ rest) =
        namedPowers false [] rest := by
    cases number with
    | none => rfl
    | some text => exact if_pos rfl
  have numbers : (number.toList.map fun text => Token.mk .number text).mapM
      (UnitAtom.ofToken catalog) = .ok (number.toList.map UnitAtom.number) := by
    cases number <;> rfl
  rw [ofContents, tokens, List.mapM_append, List.mapM_append, numbers, mapM_ofToken_atoms]
  cases below with
  | none =>
    show namedPowers false [] (_ ++ (_ ++ [])) >>= ofPowers = _
    rw [skipped, namedPowers_atoms, bind_assoc]
    refine bind_congr fun powers => ?_
    rw [namedPowers, List.append_nil, List.reverse_reverse]
    show ofPowers powers = ofPowers (powers ++ [])
    rw [List.append_nil]
  | some atoms =>
    have sign : UnitAtom.ofToken catalog bar = .ok .division := rfl
    rw [tokensBelow, List.mapM_cons, sign, mapM_ofToken_atoms]
    show namedPowers false [] (_ ++ (_ ++ .division :: _)) >>= ofPowers = _
    rw [skipped, namedPowers_atoms, bind_assoc]
    refine bind_congr fun powers => ?_
    have read := @namedPowers_atoms catalog true atoms powers.reverse []
    rw [List.append_nil] at read
    rw [namedPowers, if_neg Bool.false_ne_true, List.append_nil, read, bind_assoc]
    refine bind_congr fun others => ?_
    rw [namedPowers, List.reverse_append, List.reverse_reverse, List.reverse_reverse]
    rfl

/-- A bracket has a unit if all exponents can be read and no names are of different units of one
family. -/
theorem exists_ofContents_iff (catalog : Catalog) (bracket : Bracket) :
    (∃ unit, ofContents catalog bracket.tokens = .ok unit) ↔
      (∀ atom ∈ bracket.atoms, atom.exponent? ≠ none) ∧
        Unmixed (bracket.atoms.map (Atom.unit catalog)) := by
  rw [ofContents_tokens, atoms, List.forall_mem_append, List.map_append]
  simp only [bind_eq_ok]
  constructor
  · rintro ⟨unit, above, readAbove, below, readBelow, equal⟩
    refine ⟨⟨exists_powers_of_atoms_iff.mp ⟨above, readAbove⟩,
      exists_powers_of_atoms_iff.mp ⟨below, readBelow⟩⟩, ?_⟩
    rw [← units_of_atoms readAbove, ← units_of_atoms readBelow, ← List.map_append]
    exact CompoundUnit.exists_ofPowers_iff.mp ⟨unit, equal⟩
  · rintro ⟨⟨inAbove, inBelow⟩, unmixed⟩
    obtain ⟨above, readAbove⟩ := exists_powers_of_atoms_iff.mpr inAbove
    obtain ⟨below, readBelow⟩ := exists_powers_of_atoms_iff.mpr inBelow
    rw [← units_of_atoms readAbove, ← units_of_atoms readBelow, ← List.map_append] at unmixed
    obtain ⟨unit, equal⟩ := CompoundUnit.exists_ofPowers_iff.mpr unmixed
    exact ⟨unit, above, readAbove, below, readBelow, equal⟩

/-- Names with units of one id in one family name one unit. -/
theorem unmixed_iff (history : catalog.Adjusted) (atoms : List Atom) :
    Unmixed (atoms.map (Atom.unit catalog)) ↔ ∀ first ∈ atoms, ∀ second ∈ atoms,
      (first.unit catalog).family = (second.unit catalog).family →
        first.unit catalog = second.unit catalog := by
  simp only [Unmixed, List.forall_mem_map]
  refine forall₄_congr fun first _ second _ => forall_congr' fun _ => ?_
  exact ⟨history.unitOfName_of_id, congrArg NamedUnit.id⟩

/-- The powers of a unit that a bracket has are those of the sums of exponents that are not zero. -/
theorem mem_ofContents_iff (history : catalog.Adjusted) {bracket : Bracket}
    {unit : CompoundUnit Float} (equal : ofContents catalog bracket.tokens = .ok unit)
    (power : UnitPower Float) : power ∈ unit.powers ↔
      (∃ atom ∈ bracket.atoms, atom.unit catalog = power.unit) ∧
        inOrderSum (bracket.exponents catalog power.unit.family) = some power.exponent ∧
        (power.exponent == 0) = false := by
  have unmixed := (unmixed_iff history _).mp
    ((exists_ofContents_iff catalog bracket).mp ⟨unit, equal⟩).2
  rw [ofContents_tokens] at equal
  obtain ⟨above, readAbove, equal⟩ := bind_eq_ok.mp equal
  obtain ⟨below, readBelow, equal⟩ := bind_eq_ok.mp equal
  obtain ⟨merged, folded, equal⟩ := bind_eq_ok.mp equal
  cases equal
  have apart := CompoundUnit.apart_foldlM_mergePower List.Pairwise.nil folded
  have units : (above ++ below).map UnitPower.unit = bracket.atoms.map (Atom.unit catalog) := by
    rw [List.map_append, units_of_atoms readAbove, units_of_atoms readBelow, atoms, List.map_append]
  have named (entry : UnitPower Float) (member : entry ∈ merged) :
      ∃ atom ∈ bracket.atoms, atom.unit catalog = entry.unit := by
    obtain ⟨own, inPowers, same⟩ := CompoundUnit.exists_unit_of_merged folded entry member
    have inUnits := List.mem_map_of_mem (f := UnitPower.unit) inPowers
    rw [units, same] at inUnits
    exact List.mem_map.mp inUnits
  have sum (family : String) : CompoundUnit.exponentOf? family merged =
      inOrderSum (bracket.exponents catalog family) := by
    rw [CompoundUnit.exponentOf?_of_merged folded, CompoundUnit.exponentsOf_append,
      exponentsOf_atoms readAbove, exponentsOf_atoms readBelow, exponents]
  have kept : power ∈ (CompoundUnit.canonical ⟨merged.filter fun power =>
      !(power.exponent == 0)⟩).powers ↔ power ∈ merged ∧ (power.exponent == 0) = false := by
    rw [CompoundUnit.canonical, List.mem_mergeSort, List.mem_filter, Bool.not_eq_true']
  rw [kept, ← and_assoc, ← sum]
  refine and_congr_left fun _ => ⟨fun member => ⟨named power member, ?_⟩, ?_⟩
  · rw [CompoundUnit.exponentOf?, (CompoundUnit.powerOf?_eq_some_iff apart).mpr ⟨member, rfl⟩]
    rfl
  · rintro ⟨⟨atom, inAtoms, same⟩, exponent⟩
    obtain ⟨entry, found, alike⟩ := Option.map_eq_some_iff.mp exponent
    obtain ⟨inMerged, family⟩ := (CompoundUnit.powerOf?_eq_some_iff apart).mp found
    obtain ⟨other, inOthers, unit⟩ := named entry inMerged
    have one : entry.unit = power.unit := by
      rw [← unit, ← same]
      exact unmixed other inOthers atom inAtoms (by rw [unit, same, family])
    obtain ⟨_, _⟩ := entry
    obtain ⟨_, _⟩ := power
    cases one
    cases alike
    exact inMerged

/-- A bracket of the documented form is refused exactly if some exponent cannot be read or two of
its names are of different units of one family. Otherwise its unit has, in canonical order, one
power for each family whose exponents do not cancel: of the unit that is named, with the sum of the
exponents in the order of the names, negated below the bar. The number in front changes nothing. -/
theorem unit_of_tokens (history : catalog.Adjusted) (bracket : Bracket) :
    ((∃ cause, ofContents catalog bracket.tokens = .error cause) ↔
      (∃ atom ∈ bracket.atoms, atom.exponent? = none) ∨
        ∃ first ∈ bracket.atoms, ∃ second ∈ bracket.atoms,
          (first.unit catalog).family = (second.unit catalog).family ∧
            first.unit catalog ≠ second.unit catalog) ∧
    (∀ unit, ofContents catalog bracket.tokens = .ok unit →
      unit.powers.Pairwise Apart ∧ InOrder unit.powers ∧
        ∀ power, power ∈ unit.powers ↔
          (∃ atom ∈ bracket.atoms, atom.unit catalog = power.unit) ∧
            inOrderSum (bracket.exponents catalog power.unit.family) = some power.exponent ∧
            (power.exponent == 0) = false) ∧
    ∀ number, ofContents catalog { bracket with number := number }.tokens =
      ofContents catalog bracket.tokens := by
  refine ⟨?_, fun unit equal => ⟨?_, ?_, mem_ofContents_iff history equal⟩, fun number => ?_⟩
  · have failed : (∃ cause, ofContents catalog bracket.tokens = .error cause) ↔
        ¬ ∃ unit, ofContents catalog bracket.tokens = .ok unit := by
      cases ofContents catalog bracket.tokens with
      | ok unit => simp
      | error cause => simp
    rw [failed, exists_ofContents_iff, unmixed_iff history, Classical.not_and_iff_not_or_not]
    push Not
    rfl
  · obtain ⟨atoms, _, equal⟩ := bind_eq_ok.mp equal
    exact (CompoundUnit.reduced_ofAtoms equal).apart
  · obtain ⟨atoms, _, equal⟩ := bind_eq_ok.mp equal
    obtain ⟨powers, _, equal⟩ := bind_eq_ok.mp equal
    obtain ⟨merged, _, equal⟩ := bind_eq_ok.mp equal
    cases equal
    exact CompoundUnit.inOrder_canonical _
  · rw [ofContents_tokens, ofContents_tokens]

/-- Metres above and below the bar are added up, and seconds cancel. -/
theorem unit_of_tokens_of_length :
    let bracket : Bracket :=
      ⟨some "7", [⟨"m", some "3"⟩, ⟨"s", none⟩], some [⟨"m", none⟩, ⟨"s", none⟩]⟩
    ∃ unit, ofContents Catalog.builtin bracket.tokens = .ok unit ∧
      ⟨UnitAtom.unitOfName Catalog.builtin "m", 2⟩ ∈ unit.powers ∧
      ∀ power ∈ unit.powers, power.unit.family ≠ "second" := by
  intro bracket
  have inLengths : Catalog.scaled "meter" "meter" "m" ["m", "meter", "metre"] 1 ∈
      Catalog.builtinUnits := by
    simp [Catalog.builtinUnits, Catalog.lengthUnits]
  have inTimes : Catalog.scaled "second" "second" "s" ["s", "second", "seconds"] 1 ∈
      Catalog.builtinUnits := by
    simp [Catalog.builtinUnits, Catalog.timeUnits]
  have metre : (UnitAtom.unitOfName Catalog.builtin "m").family = "meter" :=
    congrArg NamedUnit.family (Catalog.Adjusted.initial.unitOfName_symbol (.inl
      ⟨Catalog.get?_withFactors Table.empty Catalog.nodup_builtinUnits inLengths, by decide⟩))
  have second : (UnitAtom.unitOfName Catalog.builtin "s").family = "second" :=
    congrArg NamedUnit.family (Catalog.Adjusted.initial.unitOfName_symbol (.inl
      ⟨Catalog.get?_withFactors Table.empty Catalog.nodup_builtinUnits inTimes, by decide⟩))
  have three : Decimal.read? "3" = some 3 := by decide +kernel
  have metres : inOrderSum (bracket.exponents Catalog.builtin "meter") = some 2 := by
    have sum : (3 : Float) + -1 = 2 := by decide +kernel
    have listed : bracket.exponents Catalog.builtin "meter" = [3, -1] := by
      simp [bracket, exponents, exponentsOn, Atom.unit, metre, second, Atom.signed?,
        Atom.exponent?, three]
    rw [listed, ← sum]
    rfl
  have seconds : inOrderSum (bracket.exponents Catalog.builtin "second") = some 0 := by
    have sum : (1 : Float) + -1 = 0 := by decide +kernel
    have listed : bracket.exponents Catalog.builtin "second" = [1, -1] := by
      simp [bracket, exponents, exponentsOn, Atom.unit, metre, second, Atom.signed?,
        Atom.exponent?]
    rw [listed, ← sum]
    rfl
  obtain ⟨refused, powers, _⟩ := unit_of_tokens .initial bracket
  cases read : ofContents Catalog.builtin bracket.tokens with
  | error cause =>
    have accepted := refused.mp ⟨cause, read⟩
    simp [bracket, atoms, Atom.unit, metre, second, Atom.exponent?, three] at accepted
  | ok unit =>
    obtain ⟨_, _, mem_iff⟩ := powers unit read
    refine ⟨unit, rfl, (mem_iff ⟨_, 2⟩).mpr ⟨?_, ?_, ?_⟩, ?_⟩
    · exact ⟨⟨"m", none⟩, by simp [bracket, atoms], by rw [Atom.unit]⟩
    · rw [metre, metres]
    · show ((2 : Float) == 0) = false
      decide +kernel
    · intro power member family
      obtain ⟨_, sum, nonzero⟩ := (mem_iff power).mp member
      rw [family, seconds] at sum
      rw [← Option.some.inj sum] at nonzero
      exact absurd nonzero (by decide +kernel)

end Bracket

end UnitSheet
