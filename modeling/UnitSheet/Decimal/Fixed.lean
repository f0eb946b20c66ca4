/-
This file writes numbers with a limited count of decimal places.

The number is rounded to the places asked for, and then its nearest multiple of the last place is
written with all of these places (`placedText`). Of a text with a point the zeros at its end are
dropped and then the point itself, and a zero that is left has no sign (`shorten`).
-/

import UnitSheet.Decimal.Notation
import UnitSheet.Text.Character

namespace UnitSheet.Decimal

/-- The last `count` decimal digits of a number, the highest first. -/
def lastDigits (number : Nat) : Nat → List Nat
  | 0 => []
  | count + 1 => lastDigits (number / 10) count ++ [number % 10]

/-- A count of units of `10 ^ -places`, with all of its places. -/
def placedText (negative : Bool) (units places : Nat) : List Char :=
  let fraction := (lastDigits units places).map Text.asciiDigit
  signText negative ++ Nat.toDigits 10 (units / tenTo places) ++
    if places = 0 then [] else '.' :: fraction

/-- A text without zeros at the end of a fraction, and without a point that nothing follows. -/
def withoutZeros (text : List Char) : List Char :=
  if text.contains '.' then dropTrailing '.' (dropTrailing '0' text) else text

/-- A text without what says nothing: zeros at its end, and the sign of a zero. -/
def shorten (text : List Char) : List Char :=
  if withoutZeros text = ['-', '0'] then ['0'] else withoutZeros text

/-- A count of units of `10 ^ -places`, written with a point only where a fraction remains. -/
def fixedText (negative : Bool) (units places : Nat) : String :=
  String.ofList (shorten (placedText negative units places))

/-- A number rounded to some decimal places, with all of them, or the name of a number without
digits. -/
def placedNumber (number : Float) (places : Nat) : List Char :=
  match classify number with
  | .finite exact => placedText exact.negative ((exact.roundedTo places).decimalUnits places) places
  | .infinite negative => signText negative ++ ['i', 'n', 'f']
  | .undefined => ['n', 'a', 'n']

/-- A number with at most `places` decimal places, or the name of a number without digits. -/
def formatFixed (number : Float) (places : Nat) : String :=
  String.ofList (shorten (placedNumber number places))

end UnitSheet.Decimal
