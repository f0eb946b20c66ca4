/-
This file holds units: single ones, what they are called and how they convert, and compound ones,
which are products of powers of single units.

Units that measure the same kind of thing form a family, and a unit says what one of it is
worth in the base of its family. Converting between two units of a family goes through that
base. A unit of temperature may also be shifted against the base.

The order in which the powers of a compound unit are stored is the order in which they were met;
the canonical order, in which a unit is written and compared, puts the powers above the division
bar first and sorts each side by symbol. Two compound units are compatible when their powers
agree one by one in canonical order, in exponent and in family; only then does a value
convert.
-/

import UnitSheet.Arithmetic.Scalar

namespace UnitSheet

/-! ### Single units -/

/-- A unit with a name. A value in it becomes a value in the base of its family by adding
`shift` and then multiplying by `factor`. -/
structure NamedUnit (R : Type) where
  id : String
  symbol : String
  aliases : List String
  family : String
  factor : R
  shift : R

namespace NamedUnit

variable {R : Type} [Scalar R]

/-- A unit that is not in any catalogue: it is alone in its family. -/
def custom (name : String) : NamedUnit R :=
  ⟨name, name, [name], name, Scalar.one, Scalar.zero⟩

/-- Units of one family convert into each other. -/
def sameFamily (first second : NamedUnit R) : Bool :=
  first.family == second.family

/-- A value in `source ^ exponent` as a value in `target ^ exponent`, for two units of one
family. A unit and itself need no arithmetic. -/
def rescale (value : R) (source target : NamedUnit R) (exponent : R) :
    Except ArithmeticError R :=
  if source.id = target.id then .ok value
  else do
    let sourceScale ← Scalar.power source.factor exponent
    let inBase := (value + source.shift) * sourceScale
    let targetScale ← Scalar.power target.factor exponent
    return (← Scalar.divide inBase targetScale) - target.shift

end NamedUnit

/-! ### Compound units -/

/-- A power of a named unit. -/
structure UnitPower (R : Type) where
  unit : NamedUnit R
  exponent : R

/-- A product of powers of named units; the empty product is no unit. -/
structure CompoundUnit (R : Type) where
  powers : List (UnitPower R)

/-- Why a value does not convert. -/
inductive ConversionError (R : Type) where
  | differentFamilies (source target : NamedUnit R)
  | incompatible (source target : CompoundUnit R)
  | arithmetic (cause : ArithmeticError)

namespace NamedUnit

variable {R : Type} [Scalar R]

/-- A value in `source ^ exponent` as a value in `target ^ exponent`. -/
def convert (value : R) (source target : NamedUnit R) (exponent : R) :
    Except (ConversionError R) R :=
  if source.sameFamily target then
    (rescale value source target exponent).mapError .arithmetic
  else .error (.differentFamilies source target)

end NamedUnit

namespace UnitPower

variable {R : Type} [Scalar R]

/-- Whether the power is written below the division bar. -/
def isBelow (power : UnitPower R) : Bool :=
  Scalar.isNegative power.exponent

/-- The order in which powers are written. -/
def writtenBefore (first second : UnitPower R) : Bool :=
  if first.isBelow = second.isBelow then decide (first.unit.symbol ≤ second.unit.symbol)
  else second.isBelow

/-- Powers that convert into each other: the same exponent of units of one family. -/
def agrees (first second : UnitPower R) : Bool :=
  first.exponent == second.exponent && first.unit.sameFamily second.unit

end UnitPower

namespace CompoundUnit

variable {R : Type} [Scalar R]

/-- The product of no powers. -/
def empty : CompoundUnit R := ⟨[]⟩

/-- Whether there is no unit at all. -/
def isEmpty (unit : CompoundUnit R) : Bool :=
  unit.powers.isEmpty

/-- The powers in the order in which they are written. -/
def canonical (unit : CompoundUnit R) : CompoundUnit R :=
  ⟨unit.powers.mergeSort UnitPower.writtenBefore⟩

/-- The powers of two units side by side, in canonical order. -/
def aligned (first second : CompoundUnit R) : List (UnitPower R × UnitPower R) :=
  first.canonical.powers.zip second.canonical.powers

/-- Values in one unit convert into the other. -/
def isCompatible (first second : CompoundUnit R) : Bool :=
  first.powers.length == second.powers.length &&
    (first.aligned second).all fun (source, target) => source.agrees target

/-- A value in one unit as a value in another, converted power by power in canonical order. -/
def convert (value : R) (source target : CompoundUnit R) : Except (ConversionError R) R :=
  if source.isCompatible target then
    (source.aligned target).foldlM
      (fun current (left, right) => left.unit.convert current right.unit left.exponent) value
  else .error (.incompatible source target)

/-- The powers of a unit raised to an exponent; a power whose exponent becomes zero is gone. -/
def power (unit : CompoundUnit R) (exponent : R) : CompoundUnit R :=
  ⟨unit.powers.filterMap fun factor =>
    let raised := factor.exponent * exponent
    if raised == Scalar.zero then none else some ⟨factor.unit, raised⟩⟩

end CompoundUnit

end UnitSheet
