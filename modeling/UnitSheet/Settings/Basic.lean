/-
This file holds the settings of a worksheet, and the values that a settings file can contain.

Settings say how results are written and which exchange rates hold. Exchange rates are given
in units of a currency for one euro.
-/

import UnitSheet.Decimal.Notation
import UnitSheet.Settings.Moment
import UnitSheet.Table
import UnitSheet.Text.Raw

namespace UnitSheet

/-! ### Values -/

/-- A value of a settings file. The keys of a mapping are distinct and keep their order. -/
inductive Datum where
  | null
  | boolean (value : Bool)
  | integer (value : Int)
  | real (value : Float)
  | moment (moment : Moment)
  | text (value : RawText)
  | bytes (value : List UInt8)
  | sequence (items : List Datum)
  | mapping (entries : List (Datum × Datum))

namespace Datum

/-- The floating-point number nearest to an integer. -/
def realOfInteger (value : Int) : Float :=
  let magnitude := Decimal.Numeral.value ⟨value.natAbs, 0⟩
  if value < 0 then -magnitude else magnitude

/-! ### Keys -/

/-- The integer that a datum is equal to, if it is equal to one. Truth values are equal to one and
zero. -/
def asInteger? : Datum → Option Int
  | boolean value => some (if value then 1 else 0)
  | integer value => some value
  | real value =>
    match Decimal.classify value with
    | .finite exact => if exact.fractionUp = 0 then some exact.floor else none
    | _ => none
  | _ => none

/-- Whether two data are the same key of a mapping. Numbers are compared by value, and what is not a
number is the same as itself. -/
def sameKey : Datum → Datum → Bool
  | null, null => true
  | text first, text second => first == second
  | bytes first, bytes second => first == second
  | moment first, moment second => first.same second
  | first, second =>
    match first.asInteger?, second.asInteger? with
    | some left, some right => left == right
    | none, none =>
      match first, second with
      | real left, real right => left == right || (left.isNaN && right.isNaN)
      | _, _ => false
    | _, _ => false

/-- Whether a datum can be a key at all. -/
def isKey : Datum → Bool
  | sequence _ | mapping _ => false
  | _ => true

/-- Entries with one more; an entry of the same key keeps its place and its key. -/
def putEntry (key value : Datum) : List (Datum × Datum) → List (Datum × Datum)
  | [] => [(key, value)]
  | (known, old) :: rest =>
    if known.sameKey key then (known, value) :: rest
    else (known, old) :: putEntry key value rest

/-- The greatest count of digits of an integer that is written in decimal. -/
def maxDigits : Nat := 4300

/-- Whether a datum is an integer of too many digits. -/
def isTooLong : Datum → Bool
  | integer value => decide (Decimal.tenTo maxDigits ≤ value.natAbs)
  | _ => false

/-- The key of a mapping as a message shows it. -/
def keyText : Datum → String
  | null => "None"
  | boolean value => if value then "True" else "False"
  | integer value => toString value
  | real value => Decimal.formatGeneral value
  | moment value => value.text
  | text value => value.shown
  | bytes value => Text.quoteBytes value
  | sequence _ => "[]"
  | mapping _ => "\x7b\x7d"

/-- The key of a mapping as a word, if it has one: an integer of too many digits has none. -/
def word? (key : Datum) : Option String :=
  if key.isTooLong then none else some key.keyText

end Datum

/-! ### Settings -/

/-- How results are written, the exchange rates, and how much is logged. -/
structure Settings where
  precision : Nat
  errorMarker : RawText
  emptyMarker : RawText
  currencyRates : Table Float
  logLevel : RawText

namespace Settings

/-- The greatest number of decimal places. -/
def maxPrecision : Nat := 17

/-- The settings where none are given. -/
def standard : Settings where
  precision := 13
  errorMarker := "ERR"
  emptyMarker := ""
  currencyRates := Table.empty
  logLevel := "WARNING"

end Settings

end UnitSheet
