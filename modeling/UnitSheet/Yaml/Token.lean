/-
This file holds the tokens of settings files, and the reasons why a settings file has no value.

Besides the signs that are written there are tokens for the layout: a list or mapping that
is laid out by indentation begins and ends with tokens that no character stands for.

Nearly all of the reasons are one and the same: the file is malformed. The others are about
single words in a file that is well formed: numbers, characters and dates that do not exist.
-/

import UnitSheet.Settings.Moment
import UnitSheet.Text.Raw

namespace UnitSheet.Yaml

/-! ### Tokens -/

/-- A line for the reader of the file. -/
inductive Directive where
  | version
  /-- What a short form at the start of a tag stands for. -/
  | shortForm (form meaning : String)
  | other
  deriving DecidableEq

/-- A token of a settings file. -/
inductive Token where
  | directive (directive : Directive)
  | documentStart
  | documentEnd
  /-- A list laid out by indentation begins. -/
  | itemsStart
  /-- A mapping laid out by indentation begins. -/
  | entriesStart
  /-- A list or mapping laid out by indentation ends. -/
  | blockEnd
  | openList
  | closeList
  | openMapping
  | closeMapping
  /-- The dash before an item. -/
  | dash
  | comma
  /-- A key begins; no character stands for it unless the key is marked as one. -/
  | key
  /-- The colon before a value. -/
  | colon
  | alias (name : String)
  | anchor (name : String)
  /-- A tag: the short form that it begins with, unless it is written in full, and the rest. -/
  | tag (form : Option String) (name : String)
  /-- A text, and whether it is written without quotes. -/
  | scalar (plain : Bool) (text : RawText)
  deriving DecidableEq

/-! ### Faults -/

/-- Why a settings file has no value. -/
inductive Fault where
  | malformed
  /-- A character is given by a number that is not one of a character. -/
  | noCharacter (number : Nat)
  /-- A text is not an integer in a base. -/
  | noInteger (base : Nat) (text : String)
  | noReal (text : String)
  /-- A number has nothing to begin with. -/
  | emptyNumber
  | noTruthValue (word : String)
  /-- An integer has too many digits. -/
  | tooManyDigits (count : Nat)
  /-- A number has too many groups. -/
  | tooManyGroups
  | noMoment (problem : Moment.Problem)
  /-- A text is not written as a moment. -/
  | noMomentForm
  deriving DecidableEq

/-- The greatest count of digits of an integer. -/
def maxDigits : Nat := 4300

/-- The words for a fault. -/
def Fault.message : Fault → String
  | malformed => "invalid YAML"
  | noCharacter number => "no character has the number " ++ toString number
  | noInteger base text => text ++ " is not an integer in base " ++ toString base
  | noReal text => text ++ " is not a number"
  | emptyNumber => "a number is missing"
  | noTruthValue word => word ++ " is not a truth value"
  | tooManyDigits count => toString count ++ " digits are more than " ++ toString maxDigits
  | tooManyGroups => "too many groups of sixty"
  | noMoment problem => problem.message
  | noMomentForm => "this is not a date"

end UnitSheet.Yaml
