/-
This file evaluates trees with numbers of any kind.

Of evaluation, the unit algebra already is about any scalar; an `Interpretation` adds what else
depends on the numbers: what texts and names stand for, powers and functions. With floating-point
numbers it is the evaluation of documents (`evaluate_floating`). With rational numbers sums,
differences, products and quotients are exact.
-/

import UnitSheet.Proofs.Magnitude
import UnitSheet.Sheet.Evaluation

namespace UnitSheet

/-- What evaluation needs to know about numbers besides their arithmetic. -/
structure Interpretation (R Fault : Type) where
  number : String → Except Fault (Quantity R)
  constant : String → Except Fault (Quantity R)
  reference : String → Except Fault (Quantity R)
  /-- The unit of a group. -/
  unit : CompoundUnit Float → CompoundUnit R
  power : Quantity R → Quantity R → Except Fault (Quantity R)
  call : String → Quantity R → Except Fault (Quantity R)
  conversion : ConversionError R → Fault
  defect : Defect → Fault

namespace Interpretation

variable {R Fault : Type} [Scalar R] (meaning : Interpretation R Fault)

/-- A quantity in a group with a unit. -/
def annotate (quantity : Quantity R) (unit : CompoundUnit R) : Except Fault (Quantity R) :=
  if unit.isEmpty then .ok quantity
  else if quantity.unit.isEmpty then .ok ⟨quantity.value, unit⟩
  else (quantity.convert unit).mapError meaning.conversion

/-- An operation of two quantities. -/
def operate (symbol : String) (left right : Quantity R) : Except Fault (Quantity R) :=
  match symbol with
  | "+" => do
    let right ← (right.convert left.unit).mapError meaning.conversion
    return ⟨left.value + right.value, left.unit⟩
  | "-" => do
    let right ← (right.convert left.unit).mapError meaning.conversion
    return ⟨left.value - right.value, CompoundUnit.empty⟩
  | "*" => (left.multiply right).mapError meaning.conversion
  | "/" => (left.divide right).mapError meaning.conversion
  | "^" => meaning.power left right
  | _ => .error (meaning.defect (.unknownOperator symbol))

/-- The value of a tree. -/
def evaluate : Node → Except Fault (Quantity R)
  | .number text => meaning.number text
  | .reference name => meaning.reference name
  | .constant name => meaning.constant name
  | .group _ [operand] unit => do
    meaning.annotate (← evaluate operand) (meaning.unit unit)
  | .operation symbol [left, right] => do
    let leftQuantity ← evaluate left
    let rightQuantity ← evaluate right
    meaning.operate symbol leftQuantity rightQuantity
  | .function name [argument] => do
    meaning.call name (← evaluate argument)
  | node => .error (meaning.defect (.withoutValue node.kindName))

/-- Floating-point numbers, and the quantities that names of lines stand for. -/
def floating (names : String → Evaluated (Quantity Float)) :
    Interpretation Float EvaluationError where
  number := Quantity.ofTyped
  constant := Quantity.ofConstant
  reference := names
  unit := id
  power left right := left.operate "^" right
  call name argument := argument.call name
  conversion error := .failure (.conversion error)
  defect := .defect

theorem operate_floating (names : String → Evaluated (Quantity Float)) (symbol : String)
    (left right : Quantity Float) :
    (floating names).operate symbol left right = left.operate symbol right := by
  unfold operate
  split
  · rfl
  · rfl
  · rfl
  · rfl
  · rfl
  · rw [Quantity.operate]
    · rfl
    all_goals assumption

/-- Documents are evaluated with floating-point numbers. -/
theorem evaluate_floating (names : String → Evaluated (Quantity Float)) (node : Node) :
    (floating names).evaluate node = node.evaluate names := by
  induction node using Node.evaluate.induct with
  | case1 | case2 | case3 => rfl
  | case4 label operand unit inductionHypothesis =>
    rw [evaluate, Node.evaluate, inductionHypothesis]
    rfl
  | case5 symbol left right atLeft atRight =>
    rw [evaluate, Node.evaluate, atLeft, atRight]
    simp only [operate_floating]
  | case6 name argument inductionHypothesis =>
    rw [evaluate, Node.evaluate, inductionHypothesis]
    rfl
  | case7 node =>
    rw [evaluate, Node.evaluate]
    · rfl
    all_goals assumption

end Interpretation

end UnitSheet
