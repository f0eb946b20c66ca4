/-
This file reads lines of which the numbers are masked.

A mask replaces the texts of the numbers that stand outside of unit brackets. Reading goes by the
kinds of tokens, and looks at the text of a number only in a bracket, so reading a masked line
gives the masked tree: one token does (`step_masked`), and with it all tokens of a line, and so
does every pass over the tree (`fold_masked`). Lines that are the same up to their numbers
therefore have trees that are the same up to their numbers (`masked_eq_of_ofLine`).
-/

import UnitSheet.Proofs.Walk
import UnitSheet.Sheet.Compiled

namespace UnitSheet

/-! ### Masks -/

namespace Token

/-- A token without the text of a number, unless it stands in a unit bracket. -/
def mask (inUnit : Bool) (token : Token) : Token :=
  if inUnit = false ∧ token.kind = .number then ⟨.number, "0"⟩ else token

/-- Whether a unit bracket is open after a token. A bracket reaches to the first closing sign. -/
def inUnitAfter (inUnit : Bool) (token : Token) : Bool :=
  if inUnit then !token.isSign .bracket "]" else token.isSign .bracket "["

/-- Tokens without the texts of the numbers outside of unit brackets, given whether a bracket is
open before them. -/
def masked (inUnit : Bool) : List Token → List Token
  | [] => []
  | token :: rest => token.mask inUnit :: masked (token.inUnitAfter inUnit) rest

theorem mask_of_ne {token : Token} (inUnit : Bool) (other : token.kind ≠ .number) :
    token.mask inUnit = token :=
  if_neg fun both => other both.2

theorem kind_mask (inUnit : Bool) (token : Token) : (token.mask inUnit).kind = token.kind := by
  unfold mask
  split
  · next number => exact number.2.symm
  · rfl

theorem masked_eq_nil_iff {inUnit : Bool} {tokens : List Token} :
    masked inUnit tokens = [] ↔ tokens = [] := by
  cases tokens <;> simp [masked]

end Token

namespace Node

mutual

/-- A tree without the texts of its numbers. -/
def masked : Node → Node
  | .number _ => .number "0"
  | .reference name => .reference name
  | .constant name => .constant name
  | .function name arguments => .function name (maskedAll arguments)
  | .operation symbol operands => .operation symbol (maskedAll operands)
  | .sign symbol => .sign symbol
  | .group label items unit => .group label (maskedAll items) unit
  | .bracket label => .bracket label

/-- Several trees without the texts of their numbers. -/
def maskedAll : List Node → List Node
  | [] => []
  | node :: rest => node.masked :: maskedAll rest

end

theorem maskedAll_eq_map (nodes : List Node) : maskedAll nodes = nodes.map masked := by
  induction nodes with
  | nil => rfl
  | cons node rest inductionHypothesis => rw [maskedAll, inductionHypothesis, List.map_cons]

/-- A tree that is a call up to its numbers is one. -/
theorem exists_of_masked_function {name : String} {arguments : List Node} {tree : Node}
    (same : (function name arguments).masked = tree.masked) :
    ∃ others, tree = .function name others ∧ arguments.map masked = others.map masked := by
  cases tree with
  | function _ others =>
    simp only [masked, maskedAll_eq_map, function.injEq] at same
    exact ⟨others, by rw [same.1], same.2⟩
  | _ => cases same

theorem exists_of_masked_operation {symbol : String} {operands : List Node} {tree : Node}
    (same : (operation symbol operands).masked = tree.masked) :
    ∃ others, tree = .operation symbol others ∧ operands.map masked = others.map masked := by
  cases tree with
  | operation _ others =>
    simp only [masked, maskedAll_eq_map, operation.injEq] at same
    exact ⟨others, by rw [same.1], same.2⟩
  | _ => cases same

theorem exists_of_masked_group {label : String} {items : List Node} {unit : CompoundUnit Float}
    {tree : Node} (same : (group label items unit).masked = tree.masked) :
    ∃ others, tree = .group label others unit ∧ items.map masked = others.map masked := by
  cases tree with
  | group _ others _ =>
    simp only [masked, maskedAll_eq_map, group.injEq] at same
    exact ⟨others, by rw [same.1, same.2.2], same.2.1⟩
  | _ => cases same

theorem isSign_masked (node : Node) : node.masked.isSign = node.isSign := by
  cases node <;> rfl

end Node

/-! ### Reading masked tokens -/

namespace OpenGroup

/-- An open group in which the numbers are masked. -/
def masked (group : OpenGroup) : OpenGroup :=
  { group with items := group.items.map Node.masked }

/-- The item that an operand becomes is masked with it. -/
theorem masked_call (waiting : List String) (node : Node) :
    (call waiting node).masked = call waiting node.masked := by
  induction waiting generalizing node with
  | nil => rfl
  | cons name waiting inductionHypothesis => exact inductionHypothesis (.function name [node])

theorem masked_add (group : OpenGroup) (node : Node) :
    group.masked.add node.masked = (group.add node).masked := by
  show OpenGroup.mk (call group.waiting node.masked :: group.items.map Node.masked) _ _ = _
  rw [← masked_call]
  rfl

theorem masked_close (group : OpenGroup) : group.masked.close = group.close.masked := by
  show Node.group "" (group.items.map Node.masked).reverse group.unit =
    .group "" (Node.maskedAll group.items.reverse) group.unit
  rw [Node.maskedAll_eq_map, List.map_reverse]

end OpenGroup

namespace Reading

/-- A reading in which the numbers are masked. -/
def masked (reading : Reading) : Reading where
  innermost := reading.innermost.masked
  around := reading.around.map OpenGroup.masked
  bracket := reading.bracket

variable {vocabulary : Vocabulary}

theorem masked_add (reading : Reading) (node : Node) :
    reading.masked.add node.masked = (reading.add node).masked := by
  show Reading.mk (reading.innermost.masked.add node.masked) _ _ = _
  rw [OpenGroup.masked_add]
  rfl

theorem depth_masked (reading : Reading) : reading.masked.depth = reading.depth := by
  show ((reading.innermost :: reading.around).map OpenGroup.masked).foldr _ 0 = _
  rw [List.foldr_map]
  rfl

theorem deeper_masked (reading : Reading) :
    reading.masked.deeper = masked <$> reading.deeper := by
  unfold deeper
  rw [depth_masked]
  split <;> rfl

theorem closeGroup_masked (reading : Reading) (token : Token) :
    reading.masked.closeGroup token = masked <$> reading.closeGroup token := by
  obtain ⟨⟨items, unit, waiting⟩, around, bracket⟩ := reading
  cases waiting with
  | cons name waiting => rfl
  | nil =>
    cases around with
    | nil => rfl
    | cons outer others =>
      refine congrArg (fun innermost => Except.ok (Reading.mk innermost _ bracket)) ?_
      show outer.masked.add (OpenGroup.masked ⟨items, unit, []⟩).close = _
      rw [OpenGroup.masked_close, OpenGroup.masked_add]

theorem readName_masked (reading : Reading) (name : String) :
    reading.masked.readName vocabulary name = masked <$> reading.readName vocabulary name := by
  unfold readName
  split_ifs
  · exact congrArg Except.ok (masked_add reading (.constant name))
  · exact congrArg Except.ok (masked_add reading (.reference name))
  · exact deeper_masked { reading with
      innermost := { reading.innermost with waiting := name :: reading.innermost.waiting } }
  · rfl

theorem readToken_masked (reading : Reading) (token : Token) :
    reading.masked.readToken vocabulary (token.mask false) =
      masked <$> reading.readToken vocabulary token := by
  obtain ⟨kind, text⟩ := token
  cases kind with
  | number => exact congrArg Except.ok (masked_add reading (.number text))
  | operator => exact congrArg Except.ok (masked_add reading (.sign text))
  | literal => exact readName_masked reading text
  | paren =>
    show reading.masked.readToken vocabulary ⟨.paren, text⟩ = _
    simp only [readToken]
    split_ifs
    · exact deeper_masked ⟨OpenGroup.fresh, reading.innermost :: reading.around, reading.bracket⟩
    · exact closeGroup_masked reading _
    · rfl
  | bracket =>
    show reading.masked.readToken vocabulary ⟨.bracket, text⟩ = _
    simp only [readToken]
    split_ifs
    · rfl
    · rfl
  | definition | comment | whitespace | unknown => rfl

theorem readUnitToken_masked (reading : Reading) (atoms : List UnitAtom) (token : Token) :
    reading.masked.readUnitToken vocabulary atoms token =
      masked <$> reading.readUnitToken vocabulary atoms token := by
  unfold readUnitToken
  split_ifs
  · rw [map_bind]
    refine bind_congr fun unit => ?_
    obtain ⟨⟨items, earlier, waiting⟩, around, bracket⟩ := reading
    cases waiting <;> rfl
  · rw [map_bind]
    rfl

/-- Reading one masked token. -/
theorem step_masked (reading : Reading) (token : Token) :
    reading.masked.step vocabulary (token.mask reading.bracket.isSome) =
      masked <$> reading.step vocabulary token := by
  obtain ⟨innermost, around, bracket⟩ := reading
  cases bracket with
  | none => exact readToken_masked ⟨innermost, around, none⟩ token
  | some atoms => exact readUnitToken_masked ⟨innermost, around, some atoms⟩ atoms token

/-- A reading is in a unit bracket where its tokens are. -/
theorem bracket_of_readName {reading next : Reading} {name : String}
    (stepped : reading.readName vocabulary name = .ok next) : next.bracket = reading.bracket := by
  unfold readName at stepped
  split_ifs at stepped
  · cases stepped
    rfl
  · cases stepped
    rfl
  · exact (congrArg bracket (eq_of_deeper stepped)).symm

theorem bracket_of_closeGroup {reading next : Reading} {token : Token}
    (stepped : reading.closeGroup token = .ok next) : next.bracket = reading.bracket := by
  unfold closeGroup at stepped
  split at stepped
  · cases stepped
    rfl
  · cases stepped

/-- Outside of a bracket, an opening sign leads into one. -/
theorem isSome_bracket_of_readToken {reading next : Reading} {token : Token}
    (outside : reading.bracket = none) (stepped : reading.readToken vocabulary token = .ok next) :
    next.bracket.isSome = token.isSign .bracket "[" := by
  have kept (same : next.bracket = reading.bracket) : next.bracket.isSome = false := by
    rw [same, outside]
    rfl
  obtain ⟨kind, text⟩ := token
  cases kind with
  | number | operator =>
    cases stepped
    exact kept rfl
  | literal => exact kept (bracket_of_readName stepped)
  | paren =>
    simp only [readToken] at stepped
    split_ifs at stepped
    · exact kept (congrArg bracket (eq_of_deeper stepped)).symm
    · exact kept (bracket_of_closeGroup stepped)
  | bracket =>
    simp only [readToken] at stepped
    split_ifs at stepped with opening
    cases stepped
    rw [opening]
    rfl
  | definition | comment | whitespace | unknown => cases stepped

/-- A reading is in a unit bracket where its tokens are. -/
theorem isSome_bracket_of_step {reading next : Reading} {token : Token}
    (stepped : reading.step vocabulary token = .ok next) :
    next.bracket.isSome = token.inUnitAfter reading.bracket.isSome := by
  unfold step at stepped
  split at stepped
  · next atoms inside =>
    rw [inside]
    show _ = !token.isSign .bracket "]"
    unfold readUnitToken at stepped
    split_ifs at stepped with closing
    · obtain ⟨unit, _, stepped⟩ := bind_eq_ok.mp stepped
      obtain ⟨innermost, _, stepped⟩ := bind_eq_ok.mp stepped
      cases stepped
      rw [closing]
      rfl
    · obtain ⟨atom, _, stepped⟩ := bind_eq_ok.mp stepped
      cases stepped
      rw [Bool.eq_false_iff.mpr closing]
      rfl
  · next outside =>
    rw [outside]
    exact isSome_bracket_of_readToken outside stepped

/-- Reading masked tokens. -/
theorem foldlM_masked (tokens : List Token) (reading : Reading) :
    (Token.masked reading.bracket.isSome tokens).foldlM (step vocabulary) reading.masked =
      masked <$> tokens.foldlM (step vocabulary) reading := by
  induction tokens generalizing reading with
  | nil => rfl
  | cons token tokens inductionHypothesis =>
    rw [Token.masked, List.foldlM_cons, List.foldlM_cons, step_masked, bind_map_left, map_bind]
    cases stepped : reading.step vocabulary token with
    | error error => rfl
    | ok next =>
      rw [← isSome_bracket_of_step stepped]
      exact inductionHypothesis next

theorem finish_masked (reading : Reading) :
    reading.masked.finish = Node.masked <$> reading.finish := by
  obtain ⟨⟨items, unit, waiting⟩, around, bracket⟩ := reading
  cases bracket with
  | some atoms => rfl
  | none =>
    cases waiting with
    | cons name waiting => rfl
    | nil =>
      cases around with
      | cons outer others => rfl
      | nil => exact congrArg Except.ok (OpenGroup.masked_close ⟨items, unit, []⟩)

end Reading

/-- The tree of masked tokens. -/
theorem Node.ofTokens_masked (vocabulary : Vocabulary) (tokens : List Token) :
    ofTokens vocabulary (Token.masked false tokens) = masked <$> ofTokens vocabulary tokens := by
  unfold ofTokens
  rw [map_bind]
  show ((Token.masked Reading.start.bracket.isSome tokens).foldlM (Reading.step vocabulary)
    Reading.start.masked >>= _) = _
  rw [Reading.foldlM_masked, bind_map_left]
  exact bind_congr fun reading => reading.finish_masked

/-! ### Folding masked trees -/

namespace Node

theorem leftOperand_masked (symbol : String) (before : Option Node) :
    leftOperand symbol (before.map masked) = masked <$> leftOperand symbol before := by
  cases before with
  | none =>
    show (if symbol = "-" then _ else _) = masked <$> (if symbol = "-" then _ else _)
    split <;> rfl
  | some node => cases node <;> rfl

/-- An item that is kept back is masked like those after it. -/
theorem keep_masked (before : Option Node) (others : Except ParseError (List Node)) :
    (do return (before.map masked).toList ++ (← List.map masked <$> others)) =
      List.map masked <$> (do return before.toList ++ (← others)) := by
  rw [bind_map_left, map_bind]
  refine bind_congr fun items => ?_
  cases before <;> rfl

mutual

/-- Folding a masked tree. -/
theorem fold_masked (symbol : String) (node : Node) :
    fold symbol node.masked = masked <$> fold symbol node := by
  match node with
  | .number _ | .constant _ | .reference _ | .sign _ | .bracket _ | .function _ [] => rfl
  | .function name (argument :: others) =>
    cases kind : argument.isSign with
    | true =>
      obtain ⟨found, rfl⟩ := exists_eq_sign kind
      rfl
    | false =>
      show fold symbol (.function name (argument.masked :: maskedAll others)) = _
      rw [fold_call ((isSign_masked argument).trans kind), fold_call kind,
        fold_masked symbol argument, bind_map_left, map_bind]
      rfl
  | .operation _ [] | .operation _ [_] | .operation _ (_ :: _ :: _ :: _) => rfl
  | .operation operator [left, right] =>
    show fold symbol (.operation operator [left.masked, right.masked]) = _
    rw [fold, fold, fold_masked symbol left, fold_masked symbol right]
    simp only [bind_map_left, map_bind]
    rfl
  | .group label items unit =>
    have folded := foldItems_masked symbol none items
    rw [Option.map_none] at folded
    show fold symbol (.group label (maskedAll items) unit) = _
    rw [maskedAll_eq_map, fold, fold, folded, bind_map_left, map_bind]
    refine bind_congr fun others => ?_
    rw [← maskedAll_eq_map]
    rfl
termination_by sizeOf node

/-- Folding masked items. -/
theorem foldItems_masked (symbol : String) (before : Option Node) (items : List Node) :
    foldItems symbol (before.map masked) (items.map masked) =
      List.map masked <$> foldItems symbol before items := by
  match items with
  | [] => cases before <;> rfl
  | node :: rest =>
    rw [List.map_cons]
    cases kind : node.isSign with
    | false =>
      rw [foldItems_operand ((isSign_masked node).trans kind), foldItems_operand kind,
        fold_masked symbol node, bind_map_left, map_bind]
      refine bind_congr fun folded => ?_
      rw [← keep_masked, ← foldItems_masked symbol (some folded) rest]
      rfl
    | true =>
      obtain ⟨found, rfl⟩ := exists_eq_sign kind
      by_cases same : found = symbol
      · subst same
        match rest with
        | [] =>
          show (if found = found then _ else _) =
            List.map masked <$> (if found = found then _ else _)
          rw [if_pos rfl, if_pos rfl]
          rfl
        | right :: rest =>
          show foldItems found _ (.sign found :: right.masked :: rest.map masked) = _
          rw [foldItems_same, foldItems_same, leftOperand_masked, bind_map_left, map_bind,
            isSign_masked]
          refine bind_congr fun left => ?_
          split_ifs
          · rfl
          · rw [fold_masked found right, bind_map_left, map_bind]
            refine bind_congr fun folded => ?_
            exact foldItems_masked found (some (.operation found [left, folded])) rest
      · show foldItems symbol _ (.sign found :: rest.map masked) = _
        rw [foldItems_other same, foldItems_other same, ← keep_masked,
          ← foldItems_masked symbol (some (.sign found)) rest]
        rfl
termination_by sizeOf items

end

mutual

/-- The numbers do not matter for the number of operands. -/
theorem checkOperands_masked (node : Node) : checkOperands node.masked = checkOperands node := by
  match node with
  | .number _ | .constant _ | .reference _ | .sign _ | .bracket _ => rfl
  | .group _ [] _ | .group _ (_ :: _ :: _) _ => rfl
  | .group label [item] unit => exact checkOperands_masked item
  | .function name arguments => exact checkAllOperands_masked arguments
  | .operation symbol operands => exact checkAllOperands_masked operands
termination_by sizeOf node

theorem checkAllOperands_masked (nodes : List Node) :
    checkAllOperands (maskedAll nodes) = checkAllOperands nodes := by
  match nodes with
  | [] => rfl
  | node :: rest =>
    rw [maskedAll, checkAllOperands, checkAllOperands, checkOperands_masked node,
      checkAllOperands_masked rest]
termination_by sizeOf nodes

end

/-- All passes over a masked tree. -/
theorem Folds.masked {symbols : List String} {node tree : Node} (folds : Folds symbols node tree) :
    Folds symbols node.masked tree.masked := by
  induction symbols generalizing node with
  | nil =>
    obtain ⟨rfl, checked⟩ := folds
    exact ⟨rfl, (checkOperands_masked node).trans checked⟩
  | cons symbol symbols inductionHypothesis =>
    obtain ⟨folded, equal, folds⟩ := folds
    refine ⟨folded.masked, ?_, inductionHypothesis folds⟩
    rw [fold_masked, equal]
    rfl

/-- The passes lead to one tree. -/
theorem Folds.unique {symbols : List String} {node tree other : Node}
    (folds : Folds symbols node tree) (others : Folds symbols node other) : tree = other := by
  induction symbols generalizing node with
  | nil => exact folds.1.symm.trans others.1
  | cons symbol symbols inductionHypothesis =>
    obtain ⟨folded, equal, folds⟩ := folds
    obtain ⟨_, same, others⟩ := others
    cases equal.symm.trans same
    exact inductionHypothesis folds others

/-- Lines that are the same up to their numbers have trees that are. -/
theorem masked_eq_of_ofLine {vocabulary : Vocabulary} {tokens others : List Token}
    {tree other : Node} (some : tokens ≠ [])
    (same : Token.masked false tokens = Token.masked false others)
    (read : ofLine vocabulary tokens = .ok tree) (reread : ofLine vocabulary others = .ok other) :
    tree.masked = other.masked := by
  have someOthers : others ≠ [] := by
    rwa [Ne, ← Token.masked_eq_nil_iff, ← same, Token.masked_eq_nil_iff]
  obtain ⟨node, given, folds⟩ := folds_of_ofLine some read
  obtain ⟨changed, regiven, refolds⟩ := folds_of_ofLine someOthers reread
  have agree := congrArg (ofTokens vocabulary) same
  rw [ofTokens_masked, ofTokens_masked, given, regiven] at agree
  have maskedSame : node.masked = changed.masked := Except.ok.inj agree
  exact folds.masked.unique (maskedSame ▸ refolds.masked)

end Node

/-! ### Declarations -/

/-- The name that a line declares is not masked. -/
theorem Draft.splitDeclaration_masked (tokens : List Token) :
    splitDeclaration (Token.masked false tokens) =
      ((splitDeclaration tokens).1, Token.masked false (splitDeclaration tokens).2) := by
  match tokens with
  | [] | [_] => rfl
  | first :: second :: rest =>
    simp only [Token.masked, splitDeclaration, Token.kind_mask]
    split_ifs with declares
    · obtain ⟨name, colon⟩ := declares
      have unmasked : first.kind ≠ .number := by
        rw [name]
        decide
      have afterName : first.inUnitAfter false = false := by
        show first.isSign .bracket "[" = false
        rw [Token.isSign, name]
        rfl
      have afterColon : second.inUnitAfter false = false := by
        show second.isSign .bracket "[" = false
        rw [Token.isSign, colon]
        rfl
      rw [Token.mask_of_ne false unmasked, afterName, afterColon]
    · rfl

end UnitSheet
