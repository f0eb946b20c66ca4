/-
This file reads the tokens of a line into a tree that is not yet folded.

Tokens are taken one at a time. What has been read so far is a `Reading`: the group that is
open, the functions in it that still wait for their argument, the groups around it, and the
pieces of a unit bracket if one is open. A token is put into it by `Reading.step`; the line
is complete when nothing but the outermost group is open.
-/

import UnitSheet.Expression.Bracket
import UnitSheet.Expression.Node

namespace UnitSheet

namespace Vocabulary

/-- The names of the constants. -/
def constants : List String :=
  ["pi", "e"]

/-- The names of the functions. -/
def functions : List String :=
  ["sqrt", "log", "ln", "sin", "cos", "tan", "abs", "round", "ceil", "floor"]

end Vocabulary

/-- The names that a line may use besides those of constants and functions. -/
structure Vocabulary where
  declared : List String
  catalog : Catalog

/-- A group that is still open. The latest of its items comes first, and so does the innermost of
the functions that wait for an argument. -/
structure OpenGroup where
  items : List Node
  unit : CompoundUnit Float
  waiting : List String

namespace OpenGroup

/-- A group in which nothing has been read. -/
def fresh : OpenGroup := ⟨[], CompoundUnit.empty, []⟩

/-- The group with one more item: an operand for the innermost function that waits, whose call is
then an operand for the next one, or else an item of the group. -/
def add (group : OpenGroup) (node : Node) : OpenGroup :=
  let item := group.waiting.foldl (fun argument name => .function name [argument]) node
  { group with items := item :: group.items, waiting := [] }

/-- The group with a unit given to it; a later unit replaces an earlier one. -/
def annotate (group : OpenGroup) (unit : CompoundUnit Float) : Except ParseError OpenGroup :=
  match group.waiting with
  | [] => .ok { group with unit := unit }
  | function :: _ => .error (.unitAsArgument function)

/-- The node of a group that is complete. -/
def close (group : OpenGroup) : Node :=
  .group "" group.items.reverse group.unit

end OpenGroup

/-- What has been read of a line: the innermost open group, those around it from the inside out,
and the pieces of an open unit bracket, the latest first. -/
structure Reading where
  innermost : OpenGroup
  around : List OpenGroup
  bracket : Option (List UnitAtom)

namespace Reading

/-- A line of which nothing has been read. -/
def start : Reading := ⟨OpenGroup.fresh, [], none⟩

/-- How deep the next operand would stand: the groups that are open around it and the functions
that wait for it. -/
def depth (reading : Reading) : Nat :=
  (reading.innermost :: reading.around).foldr (fun group rest => group.waiting.length + 1 + rest) 0

/-- The greatest depth, and the greatest height of a tree, that a line may have. -/
def depthLimit : Nat := 900

/-- A reading that is one deeper than before, unless that is too deep. -/
def deeper (reading : Reading) : Except ParseError Reading :=
  if depthLimit < reading.depth then .error .nestedTooDeeply else .ok reading

/-- The reading with one more item in the innermost group. -/
def add (reading : Reading) (node : Node) : Reading :=
  { reading with innermost := reading.innermost.add node }

/-- A parenthesis opens a group. -/
def openGroup (reading : Reading) : Except ParseError Reading :=
  deeper { reading with
    innermost := OpenGroup.fresh, around := reading.innermost :: reading.around }

/-- A parenthesis closes the innermost group, which no function in it may wait for. -/
def closeGroup (reading : Reading) (token : Token) : Except ParseError Reading :=
  match reading.innermost.waiting, reading.around with
  | [], outer :: others =>
    .ok ⟨outer.add reading.innermost.close, others, reading.bracket⟩
  | _, _ => .error (.unexpected token)

/-- A function waits for its argument. -/
def await (reading : Reading) (function : String) : Except ParseError Reading :=
  deeper { reading with
    innermost := { reading.innermost with waiting := function :: reading.innermost.waiting } }

/-- A name is that of a constant, of a line, or of a function, in this order. -/
def readName (vocabulary : Vocabulary) (reading : Reading) (name : String) :
    Except ParseError Reading :=
  if Vocabulary.constants.contains name then .ok (reading.add (.constant name))
  else if vocabulary.declared.contains name then .ok (reading.add (.reference name))
  else if Vocabulary.functions.contains name then reading.await name
  else .error (.unknownName name)

/-- A token outside of unit brackets. -/
def readToken (vocabulary : Vocabulary) (reading : Reading) (token : Token) :
    Except ParseError Reading :=
  match token.kind with
  | .number => .ok (reading.add (.number token.text))
  | .operator => .ok (reading.add (.sign token.text))
  | .literal => reading.readName vocabulary token.text
  | .paren =>
    if token.text = "(" then reading.openGroup
    else if token.text = ")" then reading.closeGroup token
    else .error (.unexpected token)
  | .bracket =>
    if token.text = "[" then .ok { reading with bracket := some [] }
    else .error (.unexpected token)
  | _ => .error (.unexpected token)

/-- A token in a unit bracket: the end of the bracket, which gives the innermost group its unit,
or one more piece. -/
def readUnitToken (vocabulary : Vocabulary) (reading : Reading) (atoms : List UnitAtom)
    (token : Token) : Except ParseError Reading :=
  if token.isSign .bracket "]" then do
    let unit ← CompoundUnit.ofAtoms atoms.reverse
    let innermost ← reading.innermost.annotate unit
    return { reading with innermost := innermost, bracket := none }
  else do
    let atom ← UnitAtom.ofToken vocabulary.catalog token
    return { reading with bracket := some (atom :: atoms) }

/-- The reading with one more token. -/
def step (vocabulary : Vocabulary) (reading : Reading) (token : Token) :
    Except ParseError Reading :=
  match reading.bracket with
  | some atoms => reading.readUnitToken vocabulary atoms token
  | none => reading.readToken vocabulary token

/-- The group of a line that is complete. -/
def finish (reading : Reading) : Except ParseError Node :=
  match reading.bracket, reading.innermost.waiting, reading.around with
  | none, [], [] => .ok reading.innermost.close
  | _, _, _ => .error .endOfLine

end Reading

/-- The tree of a line in which the operators are still signs. -/
def Node.ofTokens (vocabulary : Vocabulary) (tokens : List Token) : Except ParseError Node := do
  (← tokens.foldlM (Reading.step vocabulary) Reading.start).finish

end UnitSheet
