/-
This file tells the kinds of the values of a settings file apart.

A text without quotes has a kind by the way in which it is written: as one of the words for
nothing and for truth values, as an integer, as a real number, or as a moment. Integers may be
written in several bases and in groups of sixty, which colons separate. Every other text is
just a text. Two words are signs that have a meaning only as keys.
-/

import UnitSheet.Decimal.Literal
import UnitSheet.Settings.Moment

namespace UnitSheet.Yaml

/-- The kind of a value. -/
inductive Kind where
  | null
  | boolean
  | integer
  | real
  | moment
  | text
  | bytes
  | list
  /-- A list of mappings of one entry. -/
  | pairs
  | mapping
  /-- A mapping of which only the keys count. -/
  | set
  /-- The sign that as a key brings in the entries of other mappings. -/
  | merge
  /-- The sign that as a key stands for its own text. -/
  | self
  /-- A kind of which no value can be read. -/
  | unknown
  deriving DecidableEq

/-! ### Pieces of words -/

/-- Digits and underscores. -/
def isDigitOrUnderscore (character : Char) : Bool :=
  character.isDigit || character == '_'

/-- Digits or underscores, after a first digit. -/
def isDigitRun : List Char → Bool
  | [] => false
  | first :: rest => first.isDigit && rest.all isDigitOrUnderscore

/-- The pieces of a text between the characters that pass a test. -/
def splitWhere (test : Char → Bool) : List Char → List (List Char)
  | [] => [[]]
  | character :: rest =>
    match splitWhere test rest with
    | [] => [[character]]
    | piece :: others =>
      if test character then [] :: piece :: others else (character :: piece) :: others

/-- The pieces of a text between colons. -/
def splitColons (text : List Char) : List (List Char) :=
  splitWhere (· == ':') text

/-- A piece of a number in groups of sixty: one digit, or two below sixty. -/
def isSixtieth : List Char → Bool
  | [digit] => digit.isDigit
  | [tens, ones] => tens.isDigit && tens.toNat < '6'.toNat && ones.isDigit
  | _ => false

/-- Digits in groups of sixty, of which there are at least two. -/
def isGroups (text : List Char) : Bool :=
  match splitColons text with
  | first :: second :: others => isDigitRun first && (second :: others).all isSixtieth
  | _ => false

/-- The value of a digit in bases up to sixteen. -/
def digitValue? (character : Char) : Option Nat :=
  if character.isDigit then some (character.toNat - '0'.toNat)
  else if 'a' ≤ character.toLower && character.toLower ≤ 'f' then
    some (character.toLower.toNat - 'a'.toNat + 10)
  else none

/-- Whether a character is a digit in a base. -/
def isDigitIn (base : Nat) (character : Char) : Bool :=
  (digitValue? character).any (· < base)

/-! ### Numbers -/

/-- Digits in a base, or underscores. -/
def isRunIn (base : Nat) (text : List Char) : Bool :=
  !text.isEmpty && text.all fun character => character == '_' || isDigitIn base character

/-- A word that is written as an integer without a sign. -/
def isUnsignedInteger (word : List Char) : Bool :=
  match word with
  | ['0'] => true
  | '0' :: 'b' :: digits => isRunIn 2 digits
  | '0' :: 'x' :: digits => isRunIn 16 digits
  | '0' :: digits => isRunIn 8 digits
  | _ => isDigitRun word || isGroups word

/-- A word that is written as an integer. -/
def isInteger (word : List Char) : Bool :=
  isUnsignedInteger (Decimal.takeSign word).2

/-- An exponent with its sign, or nothing. -/
def isExponent : List Char → Bool
  | [] => true
  | letter :: sign :: digits =>
    letter.toLower == 'e' && (sign == '+' || sign == '-') && !digits.isEmpty &&
      digits.all Char.isDigit
  | _ => false

/-- Digits, a point, digits and an exponent, where the digits before the point or those after
it may be missing. -/
def isDecimal (word : List Char) : Bool :=
  let whole := word.takeWhile isDigitOrUnderscore
  match word.drop whole.length with
  | '.' :: rest =>
    let fraction := rest.takeWhile isDigitOrUnderscore
    isExponent (rest.drop fraction.length) &&
      if whole.isEmpty then isDigitRun fraction else isDigitRun whole
  | _ => false

/-- Digits in groups of sixty, of which the last has a point. -/
def isRealGroups (word : List Char) : Bool :=
  let beforePoint := word.takeWhile (· != '.')
  match word.drop beforePoint.length with
  | '.' :: fraction => isGroups beforePoint && fraction.all isDigitOrUnderscore
  | _ => false

/-- A word that is written as a real number. What is not a number, and a number that begins with its
point, take no sign. -/
def isReal (word : List Char) : Bool :=
  let magnitude := (Decimal.takeSign word).2
  let signed := magnitude.length != word.length
  [".inf", ".Inf", ".INF"].contains (String.ofList magnitude) ||
    [".nan", ".NaN", ".NAN"].contains (String.ofList word) ||
    (isDecimal magnitude && !(signed && magnitude.head? == some '.')) || isRealGroups magnitude

/-! ### Moments -/

/-- The number that a text of digits writes, if their count is one of those given. -/
def readField? (counts : List Nat) (text : List Char) : Option Nat :=
  if text.all Char.isDigit && counts.contains text.length then some (Decimal.digitsValue 0 text)
  else none

/-- Hours, and perhaps minutes after a colon, in minutes. -/
def readOffset? (text : List Char) : Option Nat :=
  match splitColons text with
  | [hours] => (readField? [1, 2] hours).map (60 * ·)
  | [hours, minutes] => do return 60 * (← readField? [1, 2] hours) + (← readField? [2] minutes)
  | _ => none

/-- The zone after a time, in minutes: nothing, the letter Z, or hours and perhaps minutes. -/
def readZone? (text : List Char) : Option (Option Int) :=
  match text.dropWhile fun c => c == ' ' || c == '\t' with
  | [] => if text.isEmpty then some none else none
  | ['Z'] => some (some 0)
  | sign :: offset =>
    if sign == '+' || sign == '-' then do
      let minutes ← readOffset? offset
      return some (if sign == '-' then -(minutes : Int) else minutes)
    else none

/-- The microseconds of a fraction of a second, of which six digits count. -/
def microseconds (fraction : List Char) : Nat :=
  Decimal.digitsValue 0 (fraction.take 6 ++ List.replicate (6 - fraction.length) '0')

/-- A time of a day: hours, minutes, seconds, perhaps with a fraction, and a zone. -/
def readClock? (text : List Char) : Option Moment.Clock :=
  match splitColons (text.take 8) with
  | hours :: minutes :: _ => do
    let hour ← readField? [1, 2] hours
    let minute ← readField? [2] minutes
    let afterMinute := text.drop (hours.length + 1 + minutes.length)
    if afterMinute.head? != some ':' then none
    else
      let second ← readField? [2] ((afterMinute.drop 1).take 2)
      let afterSecond := afterMinute.drop 3
      let fraction := match afterSecond with
        | '.' :: rest => rest.takeWhile Char.isDigit
        | _ => []
      let afterFraction := match afterSecond with
        | '.' :: rest => rest.dropWhile Char.isDigit
        | _ => afterSecond
      return ⟨hour, minute, second, microseconds fraction, ← readZone? afterFraction⟩
  | _ => none

/-- The moment that a text writes, whether it exists or not. In a day without a time the numbers of
the month and of the day have as many digits as `counts` says. -/
def readMoment? (counts : List Nat) (text : List Char) : Option Moment :=
  let date := text.takeWhile fun c => c.isDigit || c == '-'
  let afterDate := text.drop date.length
  let time := match afterDate with
    | 'T' :: rest | 't' :: rest => rest
    | _ => afterDate.dropWhile fun c => c == ' ' || c == '\t'
  match splitWhere (· == '-') date with
  | [yearText, monthText, dayText] => do
    let counts := if afterDate.isEmpty then counts else [1, 2]
    let year ← readField? [4] yearText
    let month ← readField? counts monthText
    let day ← readField? counts dayText
    if afterDate.isEmpty then return ⟨year, month, day, none⟩
    else if time.length == afterDate.length then none
    else return ⟨year, month, day, some (← readClock? time)⟩
  | _ => none

/-- A word that is written as a moment. In a day without a time the month and the day have two
digits. -/
def isMoment (word : List Char) : Bool :=
  (readMoment? [2] word).isSome

/-! ### Kinds -/

/-- The words that stand for nothing. -/
def nullWords : List String :=
  ["", "~", "null", "Null", "NULL"]

/-- The words for true. -/
def trueWords : List String :=
  ["yes", "Yes", "YES", "true", "True", "TRUE", "on", "On", "ON"]

/-- The words for false. -/
def falseWords : List String :=
  ["no", "No", "NO", "false", "False", "FALSE", "off", "Off", "OFF"]

/-- The kind of a text without quotes. -/
def Kind.ofWord (word : String) : Kind :=
  if nullWords.contains word then .null
  else if trueWords.contains word || falseWords.contains word then .boolean
  else if word = "<<" then .merge
  else if word = "=" then .self
  else if ["!", "&", "*"].contains word then .unknown
  else if isReal word.toList then .real
  else if isInteger word.toList then .integer
  else if isMoment word.toList then .moment
  else .text

/-- The tag that leaves the kind to the value. -/
def openTag : String := "!"

/-- What the tags of the common kinds begin with. -/
def commonPrefix : String := "tag:yaml.org,2002:"

/-- The names of the common kinds. -/
def commonKinds : List (String × Kind) :=
  [("null", .null), ("bool", .boolean), ("int", .integer), ("float", .real),
    ("timestamp", .moment), ("str", .text), ("binary", .bytes), ("seq", .list), ("omap", .pairs),
    ("pairs", .pairs), ("map", .mapping), ("set", .set), ("merge", .merge), ("value", .self)]

/-- The kind that a tag gives. -/
def Kind.ofTag (tag : String) : Kind :=
  ((commonKinds.find? fun (name, _) => commonPrefix ++ name == tag).map Prod.snd).getD .unknown

end UnitSheet.Yaml
