/-
This file evaluates trees.

The value of a tree is a quantity, given the quantities that names stand for. A sum takes
the unit of its first operand, a difference has no unit, products and quotients combine the
units, and a power raises the unit with the value. What can go wrong is kept in two kinds
apart: a `Failure` is about the numbers, units and names of a document and stays on its
line, while a `Defect` says that the tree is not one that a line is read as.
-/

import UnitSheet.Catalog.Builtin
import UnitSheet.Decimal.Literal
import UnitSheet.Expression.Node

namespace UnitSheet

/-- Why an expression has no value. -/
inductive Failure where
  | conversion (error : ConversionError Float)
  | invalidNumber (text : String)
  | exponentWithUnit
  | failedReference (name : String)
  | blankReference (name : String)

/-- Why a tree is not an expression. -/
inductive Defect where
  | undeclared (name : String)
  | unknownConstant (name : String)
  | unknownFunction (name : String)
  | unknownOperator (symbol : String)
  | withoutValue (kind : String)

/-- Why a tree has no value. -/
inductive EvaluationError where
  | failure (failure : Failure)
  | defect (defect : Defect)

/-- A value, or why there is none. -/
abbrev Evaluated (α : Type) := Except EvaluationError α

/-- The words for a failure, naming the arithmetic cause as it is. -/
def Failure.message : Failure → String
  | conversion error => error.message
  | invalidNumber text => "invalid number literal: " ++ text
  | exponentWithUnit => "exponent must be a number with no unit"
  | failedReference name => "'" ++ name ++ "' refers to a line with an error"
  | blankReference name => "'" ++ name ++ "' is defined by an empty expression"

/-- The words for a failure on the line where it happened: every division by zero is called the
same, and other arithmetic causes are marked as such. -/
def Failure.lineMessage : Failure → String
  | conversion (.arithmetic cause) =>
    if cause.isDivisionByZero then "division by zero" else "math error: " ++ cause.message
  | failure => failure.message

/-- The words for a defect. -/
def Defect.message : Defect → String
  | undeclared name => Text.quote name
  | unknownConstant name => "unknown constant: " ++ name
  | unknownFunction name => "unknown function: " ++ name
  | unknownOperator symbol => "unknown operator: " ++ symbol
  | withoutValue kind => "cannot evaluate node: " ++ kind

namespace Evaluated

/-- An arithmetic result. -/
def ofArithmetic {α : Type} (result : Except ArithmeticError α) : Evaluated α :=
  result.mapError fun cause => .failure (.conversion (.arithmetic cause))

/-- The result of a conversion. -/
def ofConversion {α : Type} (result : Except (ConversionError Float) α) : Evaluated α :=
  result.mapError fun error => .failure (.conversion error)

end Evaluated

namespace Quantity

/-- A number without a unit. -/
def pure (value : Float) : Quantity Float :=
  ⟨value, CompoundUnit.empty⟩

/-- The number that was typed. -/
def ofTyped (text : String) : Evaluated (Quantity Float) :=
  match Decimal.readTyped? text with
  | some value => .ok (pure value)
  | none => .error (.failure (.invalidNumber text))

/-- The value of a constant. -/
def ofConstant (name : String) : Evaluated (Quantity Float) :=
  match name with
  | "pi" => .ok (pure Floating.pi)
  | "e" => .ok (pure Floating.e)
  | _ => .error (.defect (.unknownConstant name))

/-- A quantity in a group with a unit: the quantity is converted, or given the unit if it has
none. -/
def annotate (quantity : Quantity Float) (unit : CompoundUnit Float) :
    Evaluated (Quantity Float) :=
  if unit.isEmpty then .ok quantity
  else if quantity.unit.isEmpty then .ok ⟨quantity.value, unit⟩
  else .ofConversion (quantity.convert unit)

/-- An operation of two quantities. -/
def operate (symbol : String) (left right : Quantity Float) : Evaluated (Quantity Float) :=
  match symbol with
  | "+" => do
    let right ← .ofConversion (right.convert left.unit)
    return ⟨left.value + right.value, left.unit⟩
  | "-" => do
    let right ← .ofConversion (right.convert left.unit)
    return pure (left.value - right.value)
  | "*" => .ofConversion (left.multiply right)
  | "/" => .ofConversion (left.divide right)
  | "^" =>
    if right.unit.isEmpty then do
      let value ← .ofArithmetic (Floating.valuePower left.value right.value)
      return ⟨value, left.unit.power right.value⟩
    else .error (.failure .exponentWithUnit)
  | _ => .error (.defect (.unknownOperator symbol))

/-- A function that keeps the unit of its argument. -/
def keepingUnit (function : Float → Except ArithmeticError Float) (argument : Quantity Float) :
    Evaluated (Quantity Float) := do
  return ⟨← .ofArithmetic (function argument.value), argument.unit⟩

/-- A trigonometric function. An angle in radians or degrees gives a number; any other unit is
left in place and its value taken as an angle in radians. -/
def trigonometric (function : Float → Float) (argument : Quantity Float) :
    Evaluated (Quantity Float) :=
  let apply value := Evaluated.ofArithmetic (Floating.trigonometric function value)
  if argument.unit.text = "rad" then do
    return pure (← apply argument.value)
  else if argument.unit.text = "deg" then do
    let angle ← .ofConversion
      (NamedUnit.convert argument.value Catalog.degrees Catalog.radians 1)
    return pure (← apply angle)
  else do
    return ⟨← apply argument.value, argument.unit⟩

/-- A call of a function. -/
def call (name : String) (argument : Quantity Float) : Evaluated (Quantity Float) :=
  match name with
  | "sqrt" => do
    return ⟨← .ofArithmetic (Floating.squareRoot argument.value), argument.unit.power 0.5⟩
  | "sin" => trigonometric Float.sin argument
  | "cos" => trigonometric Float.cos argument
  | "tan" => trigonometric Float.tan argument
  | "log" => keepingUnit (Floating.logarithm Float.log10) argument
  | "ln" => keepingUnit (Floating.logarithm Float.log) argument
  | "abs" => keepingUnit (fun value => .ok value.abs) argument
  | "round" => keepingUnit Floating.round argument
  | "ceil" => keepingUnit Floating.ceil argument
  | "floor" => keepingUnit Floating.floor argument
  | _ => .error (.defect (.unknownFunction name))

end Quantity

/-- The value of a tree, given the quantities that names stand for. Operands are evaluated from
left to right. -/
def Node.evaluate (meaning : String → Evaluated (Quantity Float)) :
    Node → Evaluated (Quantity Float)
  | .number text => Quantity.ofTyped text
  | .reference name => meaning name
  | .constant name => Quantity.ofConstant name
  | .group _ [operand] unit => do (← operand.evaluate meaning).annotate unit
  | .operation symbol [left, right] => do
    let leftQuantity ← left.evaluate meaning
    let rightQuantity ← right.evaluate meaning
    leftQuantity.operate symbol rightQuantity
  | .function name [argument] => do (← argument.evaluate meaning).call name
  | node => .error (.defect (.withoutValue node.kindName))

end UnitSheet
