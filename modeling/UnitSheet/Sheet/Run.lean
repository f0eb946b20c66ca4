/-
This file evaluates worksheets.

Lines are evaluated in the order of the worksheet, so that a line finds the quantities of the
lines it refers to. A failure stays on its line and is met again by the lines that refer to
it. An evaluation can be repeated on its own outcomes.
-/

import UnitSheet.Sheet.Compiled
import UnitSheet.Sheet.Evaluation

namespace UnitSheet

/-- Why a line has no value. -/
inductive LineError where
  | reading (error : ReadError)
  | evaluation (failure : Failure)

/-- The words for it. -/
def LineError.message : LineError → String
  | reading error => error.message
  | evaluation failure => failure.lineMessage

/-- What is known of the value of a line. A line without an expression keeps the zero that every
line has before it is evaluated. -/
abbrev Outcome := Except LineError (Quantity Float)

namespace Sheet

/-- The outcome of a line before it is evaluated. -/
def Line.unevaluated (line : Line) : Outcome :=
  match line.tree with
  | .error error => .error (.reading error)
  | .ok _ => .ok (Quantity.pure 0)

/-- The outcomes of all lines before they are evaluated. -/
def unevaluated (sheet : Sheet) : List Outcome :=
  sheet.lines.map Line.unevaluated

/-- The quantity that a name stands for: the outcome of the line that declares it. -/
def meaning (sheet : Sheet) (outcomes : List Outcome) (name : String) :
    Evaluated (Quantity Float) :=
  match sheet.names.find? name with
  | none => .error (.defect (.undeclared name))
  | some index =>
    match sheet.lines[index]?, outcomes[index]? with
    | some line, some outcome =>
      match outcome with
      | .error _ => .error (.failure (.failedReference name))
      | .ok quantity =>
        if line.isBlank then .error (.failure (.blankReference name)) else .ok quantity
    | _, _ => .error (.defect (.undeclared name))

/-- The outcome of evaluating a tree, unless the tree is not one that a line is read as. -/
def outcomeOf (evaluated : Evaluated (Quantity Float)) : Except Defect Outcome :=
  match evaluated with
  | .ok quantity => .ok (.ok quantity)
  | .error (.failure failure) => .ok (.error (.evaluation failure))
  | .error (.defect defect) => .error defect

/-- Evaluates one line, unless it is blank or known to have an error. -/
def evaluateLine (sheet : Sheet) (outcomes : List Outcome) (index : Nat) :
    Except Defect (List Outcome) :=
  match sheet.lines[index]?, outcomes[index]? with
  | some line, some (.ok _) =>
    match line.tree with
    | .ok tree =>
      if line.isBlank then .ok outcomes
      else do
        let outcome ← outcomeOf (tree.evaluate (sheet.meaning outcomes))
        return outcomes.set index outcome
    | .error _ => .ok outcomes
  | _, _ => .ok outcomes

/-- Evaluates every line in the order of the worksheet, starting from known outcomes. -/
def evaluate (sheet : Sheet) (outcomes : List Outcome) : Except Defect (List Outcome) :=
  sheet.order.foldlM sheet.evaluateLine outcomes

end Sheet

/-- Why a document has no outcomes. -/
inductive RunError where
  | cyclic (error : CyclicSheet)
  | defect (defect : Defect)

/-- Compiles and evaluates a document. -/
def Sheet.run (catalog : Catalog) (source : String) :
    Except RunError (Sheet × List Outcome) := do
  let sheet ← (compile catalog source).mapError .cyclic
  let outcomes ← (sheet.evaluate sheet.unevaluated).mapError .defect
  return (sheet, outcomes)

end UnitSheet
