/-
This file holds the reasons why a line is not an expression.
-/

import UnitSheet.Text.Quoted
import UnitSheet.Token.Basic

namespace UnitSheet

/-- Why the tokens of a line are not an expression. -/
inductive ParseError where
  | unexpected (token : Token)
  | unexpectedInUnit (token : Token)
  | endOfLine
  | unknownName (name : String)
  | unitAsArgument (function : String)
  | exponentMissing
  | exponentInvalid (text : String)
  | malformedUnit (text : String)
  | mixedUnits (first second : String)
  | argumentMissing (function : String)
  | signAsArgument (symbol function : String)
  | unexpectedNode (kind : String)
  | signAtEnd
  | signAtStart (symbol : String)
  | consecutiveSigns
  | emptyGroup
  | missingOperator
  | nestedTooDeeply
  deriving DecidableEq

/-- The words for a reason. -/
def ParseError.message : ParseError → String
  | unexpected token => "unexpected " ++ token.kind.name ++ ": " ++ Text.quote token.text
  | unexpectedInUnit token =>
    "unexpected " ++ token.kind.name ++ " in unit: " ++ Text.quote token.text
  | endOfLine => "line ends unexpectedly"
  | unknownName name => "unknown name: " ++ name
  | unitAsArgument function => "function " ++ function ++ " needs a value, got a unit"
  | exponentMissing => "expected a number after '^' in unit"
  | exponentInvalid text => "invalid unit exponent: " ++ text
  | malformedUnit text => "malformed unit expression near " ++ Text.quote text
  | mixedUnits first second =>
    "unit expression mixes " ++ first ++ " and " ++ second ++ " of the same kind"
  | argumentMissing function => "function " ++ function ++ " called without argument"
  | signAsArgument symbol function =>
    "cannot pass operator " ++ Text.quote symbol ++ " to " ++ function
  | unexpectedNode kind => "unexpected node in expression: " ++ kind
  | signAtEnd => "cannot end expression with an operator"
  | signAtStart symbol => "cannot start expression with " ++ Text.quote symbol
  | consecutiveSigns => "cannot have 2 operators consecutively"
  | emptyGroup => "empty expression"
  | missingOperator => "missing operator between operands"
  | nestedTooDeeply => "expression is nested too deeply"

end UnitSheet
