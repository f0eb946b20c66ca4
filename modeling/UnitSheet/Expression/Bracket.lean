/-
This file reads what stands in a unit bracket.

The contents are a number, which is ignored, and names with exponents; a bar puts the names
after it below the division. The powers of one family are then merged: they must be of one
unit, and their exponents are added in the order in which they stand.
-/

import UnitSheet.Catalog.Builtin
import UnitSheet.Decimal.Literal
import UnitSheet.Expression.Error

namespace UnitSheet

/-- A piece of a unit bracket. -/
inductive UnitAtom where
  | named (unit : NamedUnit Float)
  | number (text : String)
  | power
  | division

namespace UnitAtom

/-- The unit that a name in a bracket stands for: one of the catalogue, or a unit of its own. -/
def unitOfName (catalog : Catalog) (name : String) : NamedUnit Float :=
  (catalog.lookup? name).getD (NamedUnit.custom name)

/-- The piece that a token in a bracket is. -/
def ofToken (catalog : Catalog) (token : Token) : Except ParseError UnitAtom :=
  match token.kind with
  | .number => .ok (.number token.text)
  | .literal => .ok (.named (unitOfName catalog token.text))
  | .operator =>
    if token.text = "^" then .ok .power
    else if token.text = "/" then .ok .division
    else .error (.unexpectedInUnit token)
  | _ => .error (.unexpectedInUnit token)

end UnitAtom

namespace CompoundUnit

/-- The powers that the pieces of a bracket name, in order, given those named before, the latest
first, and whether the bar has been met. -/
def namedPowers (below : Bool) (named : List (UnitPower Float)) :
    List UnitAtom → Except ParseError (List (UnitPower Float))
  | [] => .ok named.reverse
  | .named unit :: rest => namedPowers below (⟨unit, if below then -1 else 1⟩ :: named) rest
  | .division :: rest =>
    if below then .error (.malformedUnit "/") else namedPowers true named rest
  | .power :: rest =>
    match named, rest with
    | [], _ => .error (.malformedUnit "^")
    | last :: earlier, .number text :: others =>
      match Decimal.read? text with
      | some exponent =>
        namedPowers below (⟨last.unit, exponent * if below then -1 else 1⟩ :: earlier) others
      | none => .error (.exponentInvalid text)
    | _ :: _, _ => .error .exponentMissing
  | .number text :: rest =>
    if named.isEmpty then namedPowers below named rest else .error (.malformedUnit text)

/-- Merges a power into those of other families. -/
def mergePower (power : UnitPower Float) :
    List (UnitPower Float) → Except ParseError (List (UnitPower Float))
  | [] => .ok [power]
  | known :: rest =>
    if known.unit.sameFamily power.unit then
      if known.unit.id = power.unit.id then
        .ok (⟨power.unit, known.exponent + power.exponent⟩ :: rest)
      else .error (.mixedUnits known.unit.symbol power.unit.symbol)
    else do return known :: (← mergePower power rest)

/-- The product of powers, merged family by family; a power whose exponents cancel is gone. -/
def ofPowers (powers : List (UnitPower Float)) : Except ParseError (CompoundUnit Float) := do
  let merged ← powers.foldlM (fun families power => mergePower power families) []
  return canonical ⟨merged.filter fun power => !(power.exponent == 0)⟩

/-- The unit that the pieces of a bracket stand for. -/
def ofAtoms (atoms : List UnitAtom) : Except ParseError (CompoundUnit Float) := do
  ofPowers (← namedPowers false [] atoms)

end CompoundUnit

end UnitSheet
