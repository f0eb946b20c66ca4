/-
This file reads the texts of a settings file as values of their kinds.

What is read may be more than what is written as a value of the kind without being told so: a
kind that is given to a text by its name brings only the text, which then may not be one of
the kind at all.

Bytes are written in base 64. Four digits stand for three bytes. At the end two digits stand for
one byte and three digits for two, and equals signs fill the group up. Characters that are no
digits do not count, nor does anything after a group that is filled up.
-/

import UnitSheet.Settings.Basic
import UnitSheet.Yaml.Kind
import UnitSheet.Yaml.Token

namespace UnitSheet

namespace Text

/-! ### Bytes -/

/-- The value of a digit in base 64. -/
def base64Digit? (character : Char) : Option Nat :=
  if character.isUpper then some (character.toNat - 'A'.toNat)
  else if character.isLower then some (character.toNat - 'a'.toNat + 26)
  else if character.isDigit then some (character.toNat - '0'.toNat + 52)
  else if character = '+' then some 62
  else if character = '/' then some 63
  else none

/-- The bytes of a group of digits, one less than there are digits. -/
def base64Group : List Nat → List UInt8
  | first :: second :: rest =>
    (4 * first + second / 16).toUInt8 :: match rest with
      | [] => []
      | third :: others =>
        (16 * second + third / 4).toUInt8 :: others.map fun fourth => (64 * third + fourth).toUInt8
  | _ => []

/-- The bytes of a text, given the digits of the group that it begins in and the number of equals
signs after them. -/
def readBase64? (group : List Nat) (filled : Nat) : List Char → Option (List UInt8)
  | [] => if group.isEmpty then some [] else none
  | character :: rest =>
    match base64Digit? character with
    | some digit =>
      if group.length = 3 then
        (readBase64? [] 0 rest).map fun bytes => base64Group (group ++ [digit]) ++ bytes
      else readBase64? (group ++ [digit]) 0 rest
    | none =>
      if character ≠ '=' ∨ group.length < 2 then readBase64? group filled rest
      else if group.length + filled = 3 then some (base64Group group)
      else readBase64? group (filled + 1) rest

/-- The bytes that a text of basic Latin characters writes. -/
def bytesOfBase64? (text : String) : Option (List UInt8) :=
  if text.toList.all (·.toNat < 128) then readBase64? [] 0 text.toList else none

end Text

namespace Yaml

/-! ### Integers -/

/-- A text without underscores. -/
def withoutUnderscores (text : List Char) : List Char :=
  text.filter (· != '_')

/-- The number that digits in a base write. -/
def numberInBase (base : Nat) (digits : List Char) : Nat :=
  digits.foldl (fun value digit => base * value + (digitValue? digit).getD 0) 0

/-- The letter that marks a base after a zero. -/
def baseLetter? (base : Nat) : Option Char :=
  [(2, 'b'), (8, 'o'), (16, 'x')].lookup base

/-- Digits without the mark of their base in front of them. -/
def withoutBaseMark (base : Nat) (digits : List Char) : List Char :=
  match digits with
  | '0' :: letter :: rest =>
    if (baseLetter? base) == some letter.toLower then rest else digits
  | _ => digits

/-- The integer in a base that a text writes, with a sign and a mark of the base. Blanks around it
do not count. -/
def integerInBase (base : Nat) (text : List Char) : Except Fault Int :=
  let (negative, unsigned) :=
    Decimal.takeSign ((Text.trimBlanks text).map Decimal.latinDigit)
  let digits := withoutBaseMark base unsigned
  if digits.isEmpty || !digits.all (isDigitIn base) then
    .error (.noInteger base (String.ofList text))
  else if base = 10 ∧ maxDigits < digits.length then .error (.tooManyDigits digits.length)
  else
    let magnitude := numberInBase base digits
    .ok (if negative then -(magnitude : Int) else magnitude)

/-- The integer in groups of sixty that pieces write. -/
def integerOfGroups (pieces : List (List Char)) : Except Fault Int := do
  return (← pieces.mapM (integerInBase 10)).foldl (fun value piece => 60 * value + piece) 0

/-- The integer that a text without sign and underscores writes. -/
def readMagnitude (text : List Char) : Except Fault Int :=
  match text with
  | [] => .error .emptyNumber
  | '0' :: 'b' :: digits => integerInBase 2 digits
  | '0' :: 'x' :: digits => integerInBase 16 digits
  | '0' :: _ => integerInBase 8 text
  | _ => if text.contains ':' then integerOfGroups (splitColons text) else integerInBase 10 text

/-- The integer that a text writes. -/
def readInteger (text : List Char) : Except Fault Int := do
  let (negative, unsigned) := Decimal.takeSign (withoutUnderscores text)
  let magnitude ← readMagnitude unsigned
  return if negative then -magnitude else magnitude

/-! ### Real numbers -/

/-- The real number that a text writes in decimal. -/
def readDecimal (text : List Char) : Except Fault Float :=
  match Decimal.read? (String.ofList text) with
  | some value => .ok value
  | none => .error (.noReal (String.ofList text))

/-- The sum of the pieces of a number in groups of sixty, the last piece first, each times its
`weight`. -/
def sumOfGroups (weight : Nat) (sum : Float) : List Float → Except Fault Float
  | [] => .ok sum
  | piece :: rest =>
    let factor := Datum.realOfInteger weight
    if factor.isInf then .error .tooManyGroups
    else sumOfGroups (60 * weight) (sum + piece * factor) rest

/-- The real number that a text without sign and underscores writes. -/
def readRealMagnitude (text : List Char) : Except Fault Float :=
  if text = ".inf".toList then .ok (1 / 0)
  else if text = ".nan".toList then .ok (0 / 0)
  else if text.contains ':' then do
    sumOfGroups 1 0 (← (splitColons text).mapM readDecimal).reverse
  else readDecimal text

/-- The real number that a text writes. -/
def readReal (text : List Char) : Except Fault Float := do
  let plain := (withoutUnderscores text).map Char.toLower
  if plain.isEmpty then .error .emptyNumber
  else
    let (negative, unsigned) := Decimal.takeSign plain
    let magnitude ← readRealMagnitude unsigned
    return if negative then -magnitude else magnitude

/-! ### Other values -/

/-- The truth value that a text names in lower or upper case. -/
def readBoolean (text : String) : Except Fault Bool :=
  let word := String.ofList (text.toList.map Char.toLower)
  if trueWords.contains word then .ok true
  else if falseWords.contains word then .ok false
  else .error (.noTruthValue word)

/-- The moment that a text writes. -/
def readMoment (text : List Char) : Except Fault Moment :=
  match readMoment? [1, 2] text with
  | some moment => moment.check.mapError .noMoment
  | none => .error .noMomentForm

/-- The value of a kind that a text writes. A text with surrogates is read as it is shown, which is
no value of any kind but a text. -/
def Kind.read (kind : Kind) (text : RawText) : Except Fault Datum :=
  match kind with
  | .null => .ok .null
  | .boolean => (readBoolean text.shown).map .boolean
  | .integer => (readInteger text.shown.toList).map .integer
  | .real => (readReal text.shown.toList).map .real
  | .moment => (readMoment text.shown.toList).map .moment
  | .text => .ok (.text text)
  | .bytes => ((text.written?.bind Text.bytesOfBase64?).map .bytes).elim (.error .malformed) .ok
  | .list | .pairs | .mapping | .set | .merge | .self | .unknown => .error .malformed

end Yaml

end UnitSheet
