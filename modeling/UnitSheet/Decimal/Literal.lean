/-
This file reads the text of a decimal number, and the numbers that are typed on a line.

The text of a number is a sign, digits with at most one point among or beside them, and an
exponent of ten after the letter e; sign and exponent may be missing. Two digits may have one
underscore between them. The words for an infinite and an undefined number are read in either
case. Blanks around the text are ignored, and digits of every script count.

In a typed number points group thousands and carry no meaning, a comma is the decimal mark, and
one percent sign at the end divides by a hundred. What is then left has to be a decimal number.
-/

import UnitSheet.Decimal.Shortest
import UnitSheet.Text.Character

namespace UnitSheet.Decimal

/-! ### Decimal numbers -/

/-- A character of a number in the basic Latin range: a digit of another script is replaced by
the digit of the same value, and everything else stays. -/
def latinDigit (character : Char) : Char :=
  match Text.decimalDigit? character with
  | some digit => Text.asciiDigit digit
  | none => character

/-- The value of a run of basic Latin digits, read after digits of value `sofar`. -/
def digitsValue (sofar : Nat) (digits : List Char) : Nat :=
  digits.foldl (fun value digit => 10 * value + (digit.toNat - '0'.toNat)) sofar

/-- The digits at the start of a text, without underscores between them, and the text after
them. An underscore belongs to the digits only between two of them. -/
def takeDigits : List Char → List Char × List Char
  | first :: '_' :: second :: rest =>
    if first.isDigit && second.isDigit then
      let (digits, remaining) := takeDigits (second :: rest)
      (first :: digits, remaining)
    else if first.isDigit then ([first], '_' :: second :: rest)
    else ([], first :: '_' :: second :: rest)
  | first :: rest =>
    if first.isDigit then
      let (digits, remaining) := takeDigits rest
      (first :: digits, remaining)
    else ([], first :: rest)
  | [] => ([], [])

/-- A sign at the start of a text, whether it is a minus, and the text after it. -/
def takeSign : List Char → Bool × List Char
  | '-' :: rest => (true, rest)
  | '+' :: rest => (false, rest)
  | text => (false, text)

/-- The exponent that fills the rest of a text; an empty rest stands for zero. -/
def readExponent? : List Char → Option Int
  | [] => some 0
  | letter :: rest =>
    if letter.toLower = 'e' then
      let (negative, unsigned) := takeSign rest
      match takeDigits unsigned with
      | (first :: digits, []) =>
        let magnitude := digitsValue 0 (first :: digits)
        some (if negative then -(magnitude : Int) else magnitude)
      | _ => none
    else none

/-- The fraction of a text that starts with a point, and the text after it. -/
def takeFraction : List Char → List Char × List Char
  | '.' :: rest => takeDigits rest
  | text => ([], text)

/-- A numeral without a sign. -/
def readNumeral? (text : List Char) : Option Numeral :=
  let (whole, afterWhole) := takeDigits text
  let (fraction, afterFraction) := takeFraction afterWhole
  if whole.isEmpty && fraction.isEmpty then none
  else (readExponent? afterFraction).map fun exponent =>
    ⟨digitsValue 0 (whole ++ fraction), exponent - fraction.length⟩

/-- The value of a text without a sign: a word or a numeral. -/
def readMagnitude? (text : List Char) : Option Float :=
  let word := text.map Char.toLower
  if word = "inf".toList ∨ word = "infinity".toList then some (1 / 0)
  else if word = "nan".toList then some (0 / 0)
  else (readNumeral? text).map Numeral.value

/-- The value of a decimal number. -/
def read? (text : String) : Option Float :=
  let (negative, unsigned) := takeSign ((Text.trimBlanks text.toList).map latinDigit)
  (readMagnitude? unsigned).map fun magnitude => if negative then -magnitude else magnitude

/-! ### Typed numbers -/

/-- The typed number with a point for its decimal mark and without the points that group. -/
def normalizeMarks (text : List Char) : List Char :=
  (text.filter (· != '.')).map fun character => if character = ',' then '.' else character

/-- The value of a typed number. -/
def readTyped? (text : String) : Option Float :=
  let normalized := normalizeMarks text.toList
  if normalized.getLast? = some '%' then
    (read? (String.ofList normalized.dropLast)).map (· / 100)
  else read? (String.ofList normalized)

end UnitSheet.Decimal
