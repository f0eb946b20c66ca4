/-
This file holds the characters that can stand around a number and in it.

Blank characters, those with the Unicode property White_Space, may surround a number without
being part of it. Decimal digits are those of every script: Unicode lays out the digits of a
script as ten consecutive code points, zero first, so a table of the zeros is enough.
`decimalDigit?` gives the value of a digit, and `asciiDigit` the digit of that value in the
basic Latin range.
-/

namespace UnitSheet.Text

/-! ### Blanks -/

/-- The blank code points as inclusive ranges, in increasing order. -/
def blankRanges : List (Nat × Nat) :=
  [(9, 13), (32, 32), (133, 133), (160, 160), (5760, 5760), (8192, 8202), (8232, 8233),
   (8239, 8239), (8287, 8287), (12288, 12288)]

/-- Blank characters are the spaces, the tabulators and the ends of lines and paragraphs. -/
def isBlank (character : Char) : Bool :=
  blankRanges.any fun (first, last) => first ≤ character.toNat && character.toNat ≤ last

/-- A text without the blanks at its two ends. -/
def trimBlanks (text : List Char) : List Char :=
  ((text.dropWhile isBlank).reverse.dropWhile isBlank).reverse

/-! ### Digits -/

/-- The code points of the digit zero, one for each script, in increasing order. -/
def digitZeros : List Nat :=
  [48, 1632, 1776, 1984, 2406, 2534, 2662, 2790, 2918, 3046, 3174, 3302, 3430, 3558, 3664, 3792,
   3872, 4160, 4240, 6112, 6160, 6470, 6608, 6784, 6800, 6992, 7088, 7232, 7248, 42528, 43216,
   43264, 43472, 43504, 43600, 44016, 65296, 66720, 68912, 69734, 69872, 69942, 70096, 70384,
   70736, 70864, 71248, 71360, 71472, 71904, 72016, 72784, 73040, 73120, 92768, 92864, 93008,
   120782, 120792, 120802, 120812, 120822, 123200, 123632, 125264, 130032]

/-- The value of a decimal digit of any script. -/
def decimalDigit? (character : Char) : Option Nat :=
  (digitZeros.find? fun first => first ≤ character.toNat && character.toNat < first + 10).map
    fun first => character.toNat - first

/-- The basic Latin digit of a value below ten. -/
def asciiDigit (value : Nat) : Char :=
  Char.ofNat ('0'.toNat + value)

/-- The basic Latin digit of a value below ten reads as that value. -/
theorem decimalDigit?_asciiDigit (value : Fin 10) :
    decimalDigit? (asciiDigit value) = some value.val := by
  revert value
  decide

end UnitSheet.Text
