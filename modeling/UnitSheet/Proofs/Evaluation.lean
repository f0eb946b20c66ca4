/-
This file says what evaluating an expression can lead to.

Evaluation is followed with a condition on units and a choice of failures. If the unit algebra
keeps to them (`Confined`), so does the evaluation of every expression whose groups have such
units and whose names stand for such quantities (`Expression.yields_evaluate`); and no expression
leads to a defect. With the condition that all units meet this is all there is to say; with
others it says what units and failures can be met at all. The value of an expression depends
on nothing but the names in it (`Expression.evaluate_congr`).
-/

import UnitSheet.Proofs.Expressions
import UnitSheet.Sheet.Evaluation

namespace UnitSheet

namespace Evaluated

variable {α β : Type} {good : α → Prop} {better : β → Prop} {allowed : Failure → Prop}

/-- A good value or an allowed failure, and no defect. -/
def Yields (good : α → Prop) (allowed : Failure → Prop) : Evaluated α → Prop
  | .ok value => good value
  | .error (.failure failure) => allowed failure
  | .error (.defect _) => False

theorem Yields.bind {evaluated : Evaluated α} {next : α → Evaluated β}
    (first : Yields good allowed evaluated)
    (second : ∀ value, good value → Yields better allowed (next value)) :
    Yields better allowed (evaluated >>= next) := by
  match evaluated with
  | .ok value => exact second value first
  | .error (.failure _) => exact first

theorem yields_ofConversion {result : Except (ConversionError Float) α}
    (values : ∀ value, result = .ok value → good value)
    (errors : ∀ error, result = .error error → allowed (.conversion error)) :
    Yields good allowed (ofConversion result) := by
  cases result with
  | ok value => exact values value rfl
  | error error => exact errors error rfl

end Evaluated

namespace Floating

/-! ### Failures of operations on values -/

theorem avoids_valuePower (base exponent : Float) :
    Avoids .negativeToFractionalPower (valuePower base exponent) := by
  unfold valuePower
  split
  · split
    · nofun
    · dsimp only
      split
      · nofun
      · split <;> nofun
  · nofun

theorem avoids_divide (dividend divisor : Float) :
    Avoids .negativeToFractionalPower (divide dividend divisor) := by
  unfold divide
  split <;> nofun

theorem avoids_squareRoot (value : Float) :
    Avoids .negativeToFractionalPower (squareRoot value) := by
  unfold squareRoot
  split <;> nofun

theorem avoids_logarithm (function : Float → Float) (value : Float) :
    Avoids .negativeToFractionalPower (logarithm function value) := by
  unfold logarithm
  split <;> nofun

theorem avoids_trigonometric (function : Float → Float) (value : Float) :
    Avoids .negativeToFractionalPower (trigonometric function value) := by
  unfold trigonometric
  split <;> nofun

theorem avoids_ofExact (function : Decimal.Binary → Float) (value : Float) :
    Avoids .negativeToFractionalPower (ofExact function value) := by
  unfold ofExact
  split <;> nofun

end Floating

/-! ### Units that evaluation keeps to -/

/-- The name that a failure is about. -/
def Failure.name? : Failure → Option String
  | failedReference name | blankReference name => some name
  | conversion _ | invalidNumber _ | exponentWithUnit => none

/-- A condition on units that the unit algebra keeps, and the failures that it can then lead to.
All failures of operations on values are allowed, and all others that are not about a name. -/
structure Confined (good : CompoundUnit Float → Prop) (allowed : Failure → Prop) : Prop where
  empty : good CompoundUnit.empty
  power : ∀ unit exponent, good unit → good (unit.power exponent)
  product : ∀ first second product : Quantity Float, good first.unit → good second.unit →
    first.multiply second = .ok product → good product.unit
  unmultiplied : ∀ (first second : Quantity Float) error, good first.unit → good second.unit →
    first.multiply second = .error error → allowed (.conversion error)
  unconverted : ∀ (quantity : Quantity Float) target error, good quantity.unit → good target →
    quantity.convert target = .error error → allowed (.conversion error)
  angle : ∀ value error, NamedUnit.convert value Catalog.degrees Catalog.radians 1 =
    .error error → allowed (.conversion error)
  arithmetic : ∀ cause, cause ≠ .negativeToFractionalPower →
    allowed (.conversion (.arithmetic cause))
  other : ∀ failure, (∀ error, failure ≠ .conversion error) → failure.name? = none →
    allowed failure

/-- The same where names may fail as well. -/
structure Tame (good : CompoundUnit Float → Prop) (allowed : Failure → Prop) : Prop
    extends Confined good allowed where
  reference : ∀ failure name, failure.name? = some name → allowed failure

/-- Every unit and every failure. -/
theorem tame_true : Tame (fun _ => True) (fun _ => True) := by
  constructor
  · constructor <;> intros <;> trivial
  · intros
    trivial

namespace Quantity

open Evaluated Floating

/-- A quantity in a good unit. -/
def InUnit (good : CompoundUnit Float → Prop) (quantity : Quantity Float) : Prop :=
  good quantity.unit

variable {good : CompoundUnit Float → Prop} {allowed : Failure → Prop}

theorem yields_ofArithmetic (confined : Confined good allowed)
    {result : Except ArithmeticError Float} (avoids : Avoids .negativeToFractionalPower result) :
    Yields (fun _ => True) allowed (ofArithmetic result) := by
  cases result with
  | ok value => trivial
  | error cause => exact confined.arithmetic cause fun equal => avoids (congrArg Except.error equal)

theorem yields_ofTyped (confined : Confined good allowed) (text : String) :
    Yields (InUnit good) allowed (ofTyped text) := by
  unfold ofTyped
  cases Decimal.readTyped? text with
  | none => exact confined.other _ nofun rfl
  | some value => exact confined.empty

theorem yields_ofConstant (confined : Confined good allowed) {name : String}
    (known : name ∈ Vocabulary.constants) : Yields (InUnit good) allowed (ofConstant name) := by
  have cases : name = "pi" ∨ name = "e" := by
    simpa [Vocabulary.constants] using known
  rcases cases with rfl | rfl
  · exact confined.empty
  · exact confined.empty

theorem yields_convert (confined : Confined good allowed) {quantity : Quantity Float}
    {target : CompoundUnit Float} (unit : good quantity.unit) (into : good target) :
    Yields (InUnit good) allowed (ofConversion (quantity.convert target)) := by
  refine yields_ofConversion (fun converted equal => ?_) fun error equal => ?_
  · obtain ⟨value, _, rest⟩ := bind_eq_ok.mp equal
    cases rest
    exact into
  · exact confined.unconverted quantity target error unit into equal

theorem yields_annotate (confined : Confined good allowed) {quantity : Quantity Float}
    {unit : CompoundUnit Float} (known : good quantity.unit) (given : good unit) :
    Yields (InUnit good) allowed (quantity.annotate unit) := by
  unfold annotate
  split
  · exact known
  · split
    · exact given
    · exact yields_convert confined known given

theorem yields_multiply (confined : Confined good allowed) {first second : Quantity Float}
    (left : good first.unit) (right : good second.unit) :
    Yields (InUnit good) allowed (ofConversion (first.multiply second)) :=
  yields_ofConversion (fun product equal => confined.product first second product left right equal)
    fun error equal => confined.unmultiplied first second error left right equal

theorem yields_divide (confined : Confined good allowed) {first second : Quantity Float}
    (left : good first.unit) (right : good second.unit) :
    Yields (InUnit good) allowed (ofConversion (first.divide second)) := by
  unfold divide
  split
  · exact confined.arithmetic _ nofun
  · cases reciprocal : (Scalar.divide Scalar.one second.value : Except ArithmeticError Float) with
    | ok value => exact yields_multiply confined left (confined.power _ _ right)
    | error cause =>
      refine confined.arithmetic cause ?_
      rintro rfl
      exact absurd reciprocal (avoids_divide _ _)

theorem yields_operate (confined : Confined good allowed) {symbol : String}
    (known : symbol ∈ Node.foldOrder) {first second : Quantity Float} (left : good first.unit)
    (right : good second.unit) : Yields (InUnit good) allowed (operate symbol first second) := by
  have cases : symbol = "^" ∨ symbol = "*" ∨ symbol = "/" ∨ symbol = "-" ∨ symbol = "+" := by
    simpa [Node.foldOrder] using known
  rcases cases with rfl | rfl | rfl | rfl | rfl
  · show Yields _ _ (if second.unit.isEmpty then _ else _)
    split
    · refine (yields_ofArithmetic confined (avoids_valuePower _ _)).bind fun _ _ => ?_
      exact confined.power _ _ left
    · exact confined.other _ nofun rfl
  · exact yields_multiply confined left right
  · exact yields_divide confined left right
  · exact (yields_convert confined right left).bind fun _ _ => confined.empty
  · exact (yields_convert confined right left).bind fun _ _ => left

theorem yields_keepingUnit (confined : Confined good allowed)
    {function : Float → Except ArithmeticError Float}
    (avoids : ∀ value, Avoids .negativeToFractionalPower (function value))
    {argument : Quantity Float} (unit : good argument.unit) :
    Yields (InUnit good) allowed (keepingUnit function argument) :=
  (yields_ofArithmetic confined (avoids _)).bind fun _ _ => unit

theorem yields_trigonometric (confined : Confined good allowed) (function : Float → Float)
    {argument : Quantity Float} (unit : good argument.unit) :
    Yields (InUnit good) allowed (trigonometric function argument) := by
  have apply := fun value => yields_ofArithmetic confined (avoids_trigonometric function value)
  unfold trigonometric
  split
  · exact (apply _).bind fun _ _ => confined.empty
  · split
    · have converted := yields_ofConversion (fun _ _ => trivial) (confined.angle argument.value)
      refine Yields.bind converted fun angle _ => ?_
      exact (apply angle).bind fun _ _ => confined.empty
    · exact (apply _).bind fun _ _ => unit

theorem yields_call (confined : Confined good allowed) {name : String}
    (known : name ∈ Vocabulary.functions) {argument : Quantity Float} (unit : good argument.unit) :
    Yields (InUnit good) allowed (call name argument) := by
  have cases : name = "sqrt" ∨ name = "log" ∨ name = "ln" ∨ name = "sin" ∨ name = "cos" ∨
      name = "tan" ∨ name = "abs" ∨ name = "round" ∨ name = "ceil" ∨ name = "floor" := by
    simpa [Vocabulary.functions] using known
  rcases cases with rfl | rfl | rfl | rfl | rfl | rfl | rfl | rfl | rfl | rfl
  · refine (yields_ofArithmetic confined (avoids_squareRoot _)).bind fun _ _ => ?_
    exact confined.power _ _ unit
  · exact yields_keepingUnit confined (avoids_logarithm Float.log10) unit
  · exact yields_keepingUnit confined (avoids_logarithm Float.log) unit
  · exact yields_trigonometric confined Float.sin unit
  · exact yields_trigonometric confined Float.cos unit
  · exact yields_trigonometric confined Float.tan unit
  · exact yields_keepingUnit confined (fun value => avoids_ok _ value.abs) unit
  · exact yields_keepingUnit confined (avoids_ofExact _) unit
  · exact yields_keepingUnit confined (avoids_ofExact _) unit
  · exact yields_keepingUnit confined (avoids_ofExact _) unit

end Quantity

namespace Node

open Evaluated Quantity

variable {refers : String → Prop} {given : CompoundUnit Float → Prop} {tree : Node}
  {meaning other : String → Evaluated (Quantity Float)}

/-- An expression keeps to the units and failures that its names and groups keep to. -/
theorem Expression.yields_evaluate {good : CompoundUnit Float → Prop} {allowed : Failure → Prop}
    (confined : Confined good allowed) (units : ∀ unit, given unit → good unit)
    (names : ∀ name, refers name → Yields (InUnit good) allowed (meaning name))
    (expression : tree.Expression refers given) :
    Yields (InUnit good) allowed (tree.evaluate meaning) := by
  induction expression with
  | number text => exact yields_ofTyped confined text
  | reference known => exact names _ known
  | constant known => exact yields_ofConstant confined known
  | function known _ argument =>
    rw [evaluate]
    exact argument.bind fun _ unit => yields_call confined known unit
  | operation known _ _ left right =>
    rw [evaluate]
    exact left.bind fun _ first => right.bind fun _ second =>
      yields_operate confined known first second
  | group unit _ item =>
    rw [evaluate]
    exact item.bind fun _ value => yields_annotate confined value (units _ unit)

/-- The value of an expression depends on the names in it alone. -/
theorem Expression.evaluate_congr (same : ∀ name, refers name → meaning name = other name)
    (expression : tree.Expression refers given) : tree.evaluate meaning = tree.evaluate other := by
  induction expression with
  | number | constant => rfl
  | reference known => exact same _ known
  | function _ _ argument => rw [evaluate, evaluate, argument]
  | operation _ _ _ left right => rw [evaluate, evaluate, left, right]
  | group _ _ item => rw [evaluate, evaluate, item]

end Node

end UnitSheet
