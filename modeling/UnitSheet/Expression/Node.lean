/-
This file holds the trees of expressions.

One kind of tree serves every stage of reading. After the tokens of a line are read, a group
holds its operands and, between them, operators that are still signs; folding then turns a
sign and its two neighbours into an operation, until every group holds one operand.
-/

import UnitSheet.Text.Character
import UnitSheet.Units.Written

namespace UnitSheet

/-- A tree of an expression. -/
inductive Node where
  /-- A number as it was typed. -/
  | number (text : String)
  /-- A name that another line declares. -/
  | reference (name : String)
  | constant (name : String)
  /-- A call; a call read from a line has one argument. -/
  | function (name : String) (arguments : List Node)
  /-- An operator with its operands; folding makes operations of two operands. -/
  | operation (symbol : String) (operands : List Node)
  /-- An operator that is not yet folded. -/
  | sign (symbol : String)
  /-- What stands between parentheses, or on a whole line, and the unit given there. A group
  read from a line has an empty label. -/
  | group (label : String) (items : List Node) (unit : CompoundUnit Float)
  /-- A unit bracket outside of any group, which no line is read as. -/
  | bracket (label : String)

namespace Node

/-- The word for the kind of a node. -/
def kindName : Node → String
  | number _ => "number"
  | reference _ => "variable"
  | constant _ => "constant"
  | function _ _ => "function"
  | operation _ _ => "operator"
  | sign _ => "raw_operator"
  | group _ _ _ => "expression"
  | bracket _ => "unit_expression"

/-- The text that a node carries. -/
def text : Node → String
  | number text => text
  | reference name | constant name | function name _ => name
  | operation symbol _ | sign symbol => symbol
  | group label _ _ | bracket label => label

/-- The unit given to a group. -/
def unit : Node → CompoundUnit Float
  | group _ _ unit => unit
  | _ => CompoundUnit.empty

/-- The nodes directly below a node. -/
def children : Node → List Node
  | function _ arguments => arguments
  | operation _ operands => operands
  | group _ items _ => items
  | _ => []

/-- Whether a node is an operator that is not yet folded. -/
def isSign : Node → Bool
  | sign _ => true
  | _ => false

/-! ### Height -/

mutual

/-- The number of nodes on the longest way down. -/
def height : Node → Nat
  | number _ | reference _ | constant _ | sign _ | bracket _ => 1
  | function _ arguments => heightOfAll arguments + 1
  | operation _ operands => heightOfAll operands + 1
  | group _ items _ => heightOfAll items + 1

/-- The height of the highest of several nodes. -/
def heightOfAll : List Node → Nat
  | [] => 0
  | node :: rest => max node.height (heightOfAll rest)

end

/-! ### Outline -/

/-- Characters that are not left at the end of a label: blanks and the separators of fields. -/
def isTrailing (character : Char) : Bool :=
  Text.isBlank character || (28 ≤ character.toNat && character.toNat ≤ 31)

/-- A label without blanks at its end. -/
def trimEnd (label : String) : String :=
  String.ofList (label.toList.reverse.dropWhile isTrailing).reverse

/-- The line of a node in an outline. -/
def outlineLabel (depth : Nat) (node : Node) : String :=
  let label := trimEnd
    (String.ofList (List.replicate (2 * depth) ' ') ++ "[" ++ node.kindName ++ "] " ++ node.text)
  if node.unit.isEmpty then label else label ++ " [" ++ node.unit.text ++ "]"

mutual

/-- The lines of an outline, deeper nodes further to the right. -/
def outlineLines (depth : Nat) : Node → List String
  | .function name arguments =>
    outlineLabel depth (.function name arguments) :: outlineOfAll (depth + 1) arguments
  | .operation symbol operands =>
    outlineLabel depth (.operation symbol operands) :: outlineOfAll (depth + 1) operands
  | .group label items unit =>
    outlineLabel depth (.group label items unit) :: outlineOfAll (depth + 1) items
  | node => [outlineLabel depth node]

/-- The lines of several outlines, one below the other. -/
def outlineOfAll (depth : Nat) : List Node → List String
  | [] => []
  | node :: rest => outlineLines depth node ++ outlineOfAll depth rest

end

/-- The tree as an indented text, one node a line. -/
def outline (node : Node) : String :=
  String.intercalate "\n" (node.outlineLines 0)

end Node

end UnitSheet
