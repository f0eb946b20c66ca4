/-
This file writes compound units.

The powers stand in canonical order. One division bar separates the negative exponents,
which are written without their sign; if nothing stands above the bar, a one does. The
exponent one is not written.
-/

import UnitSheet.Arithmetic.Floating
import UnitSheet.Decimal.Notation
import UnitSheet.Text.Quoted
import UnitSheet.Units.Quantity

namespace UnitSheet

/-- A power without the sign of its exponent. -/
def UnitPower.text (power : UnitPower Float) : String :=
  if power.exponent.abs == 1 then power.unit.symbol
  else power.unit.symbol ++ "^" ++ Decimal.formatPlain power.exponent.abs

namespace CompoundUnit

/-- The division bar and what stands before it, if nothing stands above. -/
def barText (above : List (UnitPower Float)) : List String :=
  if above.isEmpty then ["1", "/"] else ["/"]

/-- The words of a unit: the powers above the bar, the bar if one is needed, and the powers
below. -/
def words (unit : CompoundUnit Float) : List String :=
  let powers := unit.canonical.powers
  let above := powers.takeWhile (!·.isBelow)
  let below := powers.dropWhile (!·.isBelow)
  above.map UnitPower.text ++
    if below.isEmpty then [] else barText above ++ below.map UnitPower.text

/-- The unit as it is written. -/
def text (unit : CompoundUnit Float) : String :=
  String.intercalate " " unit.words

end CompoundUnit

/-- The words for a failed conversion. -/
def ConversionError.message : ConversionError Float → String
  | differentFamilies source target =>
    "cannot convert " ++ source.symbol ++ " into " ++ target.symbol
  | incompatible source target =>
    "units are not compatible: '" ++ source.text ++ "' and '" ++ target.text ++ "'"
  | arithmetic cause => cause.message

end UnitSheet
