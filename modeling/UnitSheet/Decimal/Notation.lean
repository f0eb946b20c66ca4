/-
This file spells numbers with the fewest digits that identify them.

There are two spellings. The general one (`formatGeneral`) always shows that the number is
not an integer type: it has a point or an exponent, and takes an exponent for numbers from
`10 ^ 16` on and below `10 ^ -4`. The plain one (`formatPlain`) never has an exponent and has a
point only before a fraction; exponents of units are spelled so.
-/

import UnitSheet.Decimal.Shortest

namespace UnitSheet.Decimal

/-- A list without the copies of a value at its end. -/
def dropTrailing {α : Type} [BEq α] (last : α) (list : List α) : List α :=
  (list.reverse.dropWhile (· == last)).reverse

namespace Numeral

/-- The significant digits, without zeros at the end. -/
def significant (numeral : Numeral) : List Char :=
  dropTrailing '0' (Nat.toDigits 10 numeral.digits)

/-- The whole part of a numeral in positional notation. -/
def wholeText (numeral : Numeral) : List Char :=
  let digits := numeral.significant
  if numeral.magnitude ≤ 0 then ['0']
  else digits.take numeral.magnitude.toNat ++
    List.replicate (numeral.magnitude.toNat - digits.length) '0'

/-- The fraction of a numeral in positional notation. -/
def fractionText (numeral : Numeral) : List Char :=
  List.replicate (-numeral.magnitude).toNat '0' ++
    numeral.significant.drop numeral.magnitude.toNat

/-- The numeral in positional notation, with a point only before a fraction. -/
def plainText (numeral : Numeral) : List Char :=
  numeral.wholeText ++
    if numeral.fractionText.isEmpty then [] else '.' :: numeral.fractionText

/-- The numeral in positional notation, with at least one digit after the point. -/
def pointedText (numeral : Numeral) : List Char :=
  numeral.wholeText ++
    '.' :: if numeral.fractionText.isEmpty then ['0'] else numeral.fractionText

/-- An exponent with its sign and at least two digits. -/
def exponentText (exponent : Int) : List Char :=
  let digits := Nat.toDigits 10 exponent.natAbs
  (if exponent < 0 then '-' else '+') :: (List.replicate (2 - digits.length) '0' ++ digits)

/-- The numeral with one digit before the point and an exponent. -/
def scientificText (numeral : Numeral) : List Char :=
  let mantissa := match numeral.significant with
    | [] => ['0']
    | [digit] => [digit]
    | digit :: others => digit :: '.' :: others
  mantissa ++ 'e' :: exponentText (numeral.magnitude - 1)

/-- The general spelling of a numeral. -/
def generalText (numeral : Numeral) : List Char :=
  if numeral.digits = 0 ∨ (-4 < numeral.magnitude ∧ numeral.magnitude ≤ 16) then
    numeral.pointedText
  else numeral.scientificText

end Numeral

/-- The sign of a number before its digits. -/
def signText (negative : Bool) : List Char :=
  if negative then ['-'] else []

/-- The general spelling of a floating-point number. -/
def formatGeneral (number : Float) : String :=
  match classify number with
  | .finite exact =>
    String.ofList (signText exact.negative ++ (shortest number exact).generalText)
  | .infinite negative => String.ofList (signText negative ++ ['i', 'n', 'f'])
  | .undefined => "nan"

/-- The plain spelling of a floating-point number. -/
def formatPlain (number : Float) : String :=
  match classify number with
  | .finite exact =>
    String.ofList (signText exact.negative ++ (shortest number exact).plainText)
  | .infinite negative =>
    String.ofList (signText negative ++ "Infinity".toList)
  | .undefined => "NaN"

end UnitSheet.Decimal
