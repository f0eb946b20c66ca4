/-
This file writes the results of a worksheet, one line for each of its lines.

A line with an error and a line without an expression are written as the markers of the
settings. A value is written with the decimal places of the settings and followed by its
unit, if it has one.
-/

import UnitSheet.Decimal.Fixed
import UnitSheet.Settings.Basic
import UnitSheet.Sheet.Run

namespace UnitSheet

/-- A quantity with a limited count of decimal places. -/
def Quantity.text (quantity : Quantity Float) (precision : Nat) : String :=
  let value := Decimal.formatFixed quantity.value precision
  if quantity.unit.isEmpty then value else value ++ " " ++ quantity.unit.text

namespace Sheet

/-- The result of one line. -/
def lineText (settings : Settings) (line : Line) (outcome : Outcome) : RawText :=
  match outcome with
  | .error _ => settings.errorMarker
  | .ok quantity =>
    if line.isBlank then settings.emptyMarker else quantity.text settings.precision

/-- The results of all lines. -/
def lineTexts (settings : Settings) (sheet : Sheet) (outcomes : List Outcome) : List RawText :=
  List.zipWith (lineText settings) sheet.lines outcomes

/-- The results of a worksheet as one text. -/
def report (settings : Settings) (sheet : Sheet) (outcomes : List Outcome) : RawText :=
  RawText.joinLines (sheet.lineTexts settings outcomes)

end Sheet

/-- The catalogue with the exchange rates of settings, if there are any. -/
def Settings.applyTo (settings : Settings) (catalog : Catalog) : Except CatalogError Catalog :=
  catalog.setRates settings.currencyRates.entries

end UnitSheet
