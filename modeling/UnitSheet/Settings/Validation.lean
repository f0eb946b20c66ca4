/-
This file turns the contents of a settings file into settings.

A number of decimal places may be given as an integer, as a truth value, as an integral
real number or as the text of an integer; a rate as any number or as the text of one; texts
only as texts. Bytes count as the text that they encode. Every field that does not fit is
reported with its place, and so is every key that is not the name of a field.
-/

import UnitSheet.Decimal.Literal
import UnitSheet.Settings.Basic

namespace UnitSheet

/-- What is wrong with a field. -/
inductive Problem where
  | notAnInteger
  | integerText
  | integerTooLarge
  | fraction
  | notFinite
  | belowMinimum
  | aboveMaximum
  | notAText
  | notUnicode
  | notANumber
  | numberText
  | notAMapping
  | unknownField
  | keyNotAText
  deriving DecidableEq

/-- The word for a problem. -/
def Problem.name : Problem → String
  | notAnInteger => "int_type"
  | integerText => "int_parsing"
  | integerTooLarge => "int_parsing_size"
  | fraction => "int_from_float"
  | notFinite => "finite_number"
  | belowMinimum => "greater_than_equal"
  | aboveMaximum => "less_than_equal"
  | notAText => "string_type"
  | notUnicode => "string_unicode"
  | notANumber => "float_type"
  | numberText => "float_parsing"
  | notAMapping => "dict_type"
  | unknownField => "extra_forbidden"
  | keyNotAText => "invalid_key"

/-- A step on the way to what has a problem. -/
inductive Step where
  /-- A field of the settings. -/
  | field (name : String)
  /-- What stands under a key. -/
  | under (key : Datum)
  /-- The key itself. -/
  | key

/-- A problem and the way to what has it. -/
structure Complaint where
  place : List Step
  problem : Problem

namespace Settings

/-! ### Texts given as bytes -/

/-- The text that bytes encode. -/
def textOfBytes? (bytes : List UInt8) : Option String :=
  String.fromUTF8? ⟨bytes.toArray⟩

/-! ### Numbers given as texts -/

/-- A text without single underscores inside of it. -/
def withoutUnderscores (text : List Char) : List Char :=
  let doubled := (text.zip (text.drop 1)).any fun (first, second) =>
    first == '_' && second == '_'
  if text.head? = some '_' ∨ text.getLast? = some '_' ∨ doubled then text
  else text.filter (· != '_')

/-- A text without a point and zeros after it at its end. -/
def withoutZeroFraction (text : List Char) : List Char :=
  let fraction := (text.dropWhile (· != '.')).drop 1
  if !fraction.isEmpty && fraction.all (· == '0') then text.takeWhile (· != '.') else text

/-- The text that follows zeros, of which `last` is the latest character. Underscores may stand
among the zeros. Before a point and at the end of the text the latest character stays. -/
def afterZeros (last : Char) : List Char → List Char
  | [] => [last]
  | character :: rest =>
    if character = '0' ∨ character = '_' then afterZeros character rest
    else if character = '.' then last :: character :: rest
    else character :: rest

/-- A text that begins with a digit without the zeros at its start. What follows the zeros is a
number by itself, and may have a sign. -/
def withoutLeadingZeros? : List Char → Option (List Char)
  | [] => none
  | first :: rest =>
    if first = '0' then some (afterZeros first rest)
    else if first.isDigit then some (first :: rest)
    else none

/-- The greatest count of digits of an integer given as a text. -/
def maxDigits : Nat := 4300

/-- The digits of an integer: more than one only if the first is not zero. -/
def magnitudeOfDigits (digits : List Char) : Except Problem Nat :=
  if maxDigits < (digits.takeWhile Char.isDigit).length then .error .integerTooLarge
  else if digits.isEmpty || !digits.all Char.isDigit ||
      (digits.head? == some '0' && digits.length != 1) then .error .integerText
  else .ok (Decimal.digitsValue 0 digits)

/-- A sign at the start of an integer and the digits after it. -/
def integerOfDigits : List Char → Except Problem Int
  | '-' :: digits => (magnitudeOfDigits digits).map fun magnitude => -(magnitude : Int)
  | digits => (magnitudeOfDigits digits).map Int.ofNat

/-- The integer that a text stands for. Blanks around it, a sign, zeros before it, underscores
between digits and a fraction of zeros are allowed. -/
def integerOfText (text : String) : Except Problem Int :=
  let (negative, unsigned) := Decimal.takeSign (Text.trimBlanks text.toList)
  match withoutLeadingZeros? unsigned with
  | none => .error .integerText
  | some digits =>
    let plain := withoutUnderscores (withoutZeroFraction digits)
    integerOfDigits (if negative then '-' :: plain else plain)

/-- The number that a text of basic Latin characters stands for. -/
def realOfText? (text : String) : Option Float :=
  let trimmed := Text.trimBlanks text.toList
  let plain := if trimmed.contains '_' then withoutUnderscores text.toList else trimmed
  if plain.all (·.toNat < 128) && !plain.contains '_' && plain == Text.trimBlanks plain then
    Decimal.read? (String.ofList plain)
  else none

/-! ### Fields -/

/-- An integer between two bounds. -/
def checkRange (value : Int) : Except Problem Nat :=
  if value < 0 then .error .belowMinimum
  else if (maxPrecision : Int) < value then .error .aboveMaximum
  else .ok value.toNat

/-- The integer that a real number is equal to. -/
def integerOfReal (value : Float) : Except Problem Int :=
  match Decimal.classify value with
  | .finite exact =>
    if exact.fractionUp ≠ 0 then .error .fraction
    else if exact.whole < Decimal.twoTo 63 then .ok exact.floor
    else .error .integerTooLarge
  | _ => .error .notFinite

/-- A number of decimal places. -/
def readPrecision (datum : Datum) : Except Problem Nat :=
  match datum with
  | .boolean value => checkRange (if value then 1 else 0)
  | .integer value => checkRange value
  | .real value => do checkRange (← integerOfReal value)
  | .text (.plain value) => do checkRange (← integerOfText value)
  | .text (.surrogates _ _) => .error .notUnicode
  | .bytes value =>
    match textOfBytes? value with
    | some text => do checkRange (← integerOfText text)
    | none => .error .integerText
  | _ => .error .notAnInteger

/-- A text, or the bytes that encode it. -/
def readText (datum : Datum) : Except Problem RawText :=
  match datum with
  | .text value => .ok value
  | .bytes value =>
    match textOfBytes? value with
    | some text => .ok (.plain text)
    | none => .error .notUnicode
  | _ => .error .notAText

/-- An exchange rate. An integer that is too large for a floating-point number is not one. -/
def readRate (datum : Datum) : Except Problem Float :=
  match datum with
  | .boolean value => .ok (if value then 1 else 0)
  | .integer value =>
    let rounded := Datum.realOfInteger value
    if rounded.isInf then .error .notANumber else .ok rounded
  | .real value => .ok value
  | .text (.plain value) =>
    match realOfText? value with
    | some value => .ok value
    | none => .error .numberText
  | .text (.surrogates _ _) => .error .notUnicode
  | .bytes value =>
    match (textOfBytes? value).bind realOfText? with
    | some value => .ok value
    | none => .error .numberText
  | _ => .error .notANumber

/-- An exchange rate under its key, with everything that is wrong with the two. -/
def readRateEntry (field : String) (entry : Datum × Datum) :
    Except (List Complaint) (String × Float) :=
  let place := [.field field, .under entry.1]
  match readText entry.1, readRate entry.2 with
  | .ok key, .ok rate => .ok (key.shown, rate)
  | .ok _, .error problem => .error [⟨place, problem⟩]
  | .error problem, .ok _ => .error [⟨place ++ [.key], problem⟩]
  | .error first, .error second => .error [⟨place ++ [.key], first⟩, ⟨place, second⟩]

/-- Exchange rates, in the order in which they are given. -/
def readRates (field : String) (datum : Datum) : Except (List Complaint) (Table Float) :=
  match datum with
  | .mapping entries =>
    let results := entries.map (readRateEntry field)
    let complaints := results.flatMap fun
      | .ok _ => []
      | .error complaints => complaints
    let rates := results.filterMap fun
      | .ok rate => some rate
      | .error _ => none
    if complaints.isEmpty then .ok (Table.ofList rates) else .error complaints
  | _ => .error [⟨[.field field], .notAMapping⟩]

/-- A reading of one field with its complaint placed. -/
def placed {α : Type} (field : String) (result : Except Problem α) :
    Except (List Complaint) α :=
  result.mapError fun problem => [⟨[.field field], problem⟩]

/-- The settings with one entry of a settings file read. -/
def readEntry (settings : Settings) (entry : Datum × Datum) : Except (List Complaint) Settings :=
  match entry.1 with
  | .text (.plain "precision") => do
    return { settings with precision := ← placed "precision" (readPrecision entry.2) }
  | .text (.plain "error_marker") => do
    return { settings with errorMarker := ← placed "error_marker" (readText entry.2) }
  | .text (.plain "empty_marker") => do
    return { settings with emptyMarker := ← placed "empty_marker" (readText entry.2) }
  | .text (.plain "currency_rates") => do
    return { settings with currencyRates := ← readRates "currency_rates" entry.2 }
  | .text (.plain "log_level") => do
    return { settings with logLevel := ← placed "log_level" (readText entry.2) }
  | .text (.plain field) => .error [⟨[.field field], .unknownField⟩]
  | .text (.surrogates codes unpaired) =>
    .error [⟨[.under (.text (.surrogates codes unpaired))], .notUnicode⟩]
  | key => .error [⟨[.under key], .keyNotAText⟩]

/-- Reads entries one after the other and goes on after a complaint, so that all complaints are
found. -/
def readEntries (settings : Settings) (complaints : List Complaint) :
    List (Datum × Datum) → Settings × List Complaint
  | [] => (settings, complaints)
  | entry :: rest =>
    match readEntry settings entry with
    | .ok changed => readEntries changed complaints rest
    | .error more => readEntries settings (complaints ++ more) rest

/-- The settings that the entries of a settings file stand for, or everything that is wrong with
them. -/
def ofEntries (entries : List (Datum × Datum)) : Except (List Complaint) Settings :=
  match readEntries standard [] entries with
  | (settings, []) => .ok settings
  | (_, complaints) => .error complaints

end Settings

end UnitSheet
