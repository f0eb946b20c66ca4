/-
This file reads the tokens of a line into the tree that is evaluated.

The tokens are read into groups, the operators are folded, and every group must then hold
one operand. A line without tokens is an empty group. Trees that are higher than the limit
are refused before each pass over them.

One pass folds one operator: in every group each of its signs takes the item before it and
the item after it, from left to right, so the operator groups to the left. Passes in the
order of `foldOrder` make the operators that bind tighter first. A minus at the start of a
group takes a zero as its first operand.
-/

import UnitSheet.Expression.Reading

namespace UnitSheet.Node

/-! ### Folding -/

/-- The operators in the order in which they are folded, tightest first. -/
def foldOrder : List String :=
  ["^", "*", "/", "-", "+"]

/-- The first operand of a sign, from the item before it if there is one. -/
def leftOperand (symbol : String) : Option Node → Except ParseError Node
  | none => if symbol = "-" then .ok (.number "0") else .error (.signAtStart symbol)
  | some (.sign _) => .error .consecutiveSigns
  | some node => .ok node

mutual

/-- The tree with every sign of one operator folded. -/
def fold (symbol : String) : Node → Except ParseError Node
  | .number text => .ok (.number text)
  | .constant name => .ok (.constant name)
  | .reference name => .ok (.reference name)
  | .function name [] => .error (.argumentMissing name)
  | .function name (.sign found :: _) => .error (.signAsArgument found name)
  | .function name (argument :: _) => do
    return .function name [← fold symbol argument]
  | .operation operator [left, right] => do
    return .operation operator [← fold symbol left, ← fold symbol right]
  | .group label items unit => do
    return .group label (← foldItems symbol none items) unit
  | node => .error (.unexpectedNode node.kindName)

/-- The items of a group with every sign of one operator folded. The item before those given is
kept back, since the next sign may take it as its operand. -/
def foldItems (symbol : String) (before : Option Node) :
    List Node → Except ParseError (List Node)
  | [] => .ok before.toList
  | [.sign found] =>
    if found = symbol then .error .signAtEnd else .ok (before.toList ++ [.sign found])
  | .sign found :: right :: rest =>
    if found = symbol then do
      let left ← leftOperand symbol before
      if right.isSign then .error .consecutiveSigns
      else do
        let right ← fold symbol right
        foldItems symbol (some (.operation symbol [left, right])) rest
    else do
      return before.toList ++ (← foldItems symbol (some (.sign found)) (right :: rest))
  | item :: rest => do
    let item ← fold symbol item
    return before.toList ++ (← foldItems symbol (some item) rest)

end

mutual

/-- Refuses a tree in which a group does not hold exactly one operand. -/
def checkOperands : Node → Except ParseError Unit
  | .group _ [] _ => .error .emptyGroup
  | .group _ [item] _ => checkOperands item
  | .group _ (_ :: _ :: _) _ => .error .missingOperator
  | .function _ arguments => checkAllOperands arguments
  | .operation _ operands => checkAllOperands operands
  | _ => .ok ()

/-- Refuses several trees if one of them is refused. -/
def checkAllOperands : List Node → Except ParseError Unit
  | [] => .ok ()
  | node :: rest => do
    checkOperands node
    checkAllOperands rest

end

/-! ### Lines -/

/-- A tree that is not too high. -/
def limitHeight (node : Node) : Except ParseError Node :=
  if Reading.depthLimit < node.height then .error .nestedTooDeeply else .ok node

/-- The group of a line that has no tokens. -/
def blank : Node :=
  .group "" [] CompoundUnit.empty

/-- The tree with the signs of all operators folded, tightest first. -/
def foldAll (node : Node) : Except ParseError Node :=
  foldOrder.foldlM (fun tree symbol => do fold symbol (← limitHeight tree)) node

/-- The tree that the tokens of a line stand for. -/
def ofLine (vocabulary : Vocabulary) (tokens : List Token) : Except ParseError Node :=
  if tokens.isEmpty then .ok blank
  else do
    let tree ← foldAll (← ofTokens vocabulary tokens)
    checkOperands (← limitHeight tree)
    return tree

end UnitSheet.Node
