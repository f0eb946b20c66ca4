/-
This file says what the tokens of a line are read into before anything is folded.

The reading takes one token at a time and the grammar does not, so the two are compared
through what a reading has consumed. In one direction every open group holds a sequence of
the grammar, whatever its items will fold into, and a step keeps that (`hasRead_step`). In
the other the tokens of an operand add one item to any reading, whatever groups and functions
are open around it (`exists_operand`).
-/

import UnitSheet.Proofs.Folding

namespace UnitSheet

open Grammar Node

/-! ### What an open group holds -/

namespace OpenGroup

/-- The tokens of functions that wait, the innermost of which comes first in the list. -/
def waitingTokens (waiting : List String) : List Token :=
  waiting.reverse.map fun name => ⟨.literal, name⟩

theorem waitingTokens_cons (name : String) (waiting : List String) :
    waitingTokens (name :: waiting) = waitingTokens waiting ++ [⟨.literal, name⟩] := by
  rw [waitingTokens, List.reverse_cons, List.map_append]
  rfl

/-- The tokens that an open group has taken: whatever its items fold into, they are a sequence
with these items, and then functions that wait. -/
structure Holds (vocabulary : Vocabulary) (group : OpenGroup) (tokens : List Token) : Prop where
  known : ∀ symbol, .sign symbol ∈ group.items → symbol ∈ foldOrder
  functions : ∀ name ∈ group.waiting, vocabulary.IsFunction name
  sequence : ∃ before, tokens = before ++ waitingTokens group.waiting ∧
    ∀ items, List.Forall₂ FoldsItem group.items items →
      Sequence vocabulary before items.reverse group.unit

variable {vocabulary : Vocabulary} {group : OpenGroup} {tokens : List Token}

theorem holds_fresh : Holds vocabulary fresh [] where
  known _ member := absurd member List.not_mem_nil
  functions _ member := absurd member List.not_mem_nil
  sequence := ⟨[], rfl, fun items related => by cases related; exact .empty⟩

/-- One more item, which takes the functions that wait. -/
theorem Holds.push (holds : Holds vocabulary group tokens) (item : Node) {more : List Token}
    (known : ∀ symbol, item = .sign symbol → symbol ∈ foldOrder)
    (reads : ∀ {before : List Token} {items : List Node} {unit : CompoundUnit Float}
      {tree : Node}, FoldsItem item tree → Sequence vocabulary before items unit →
      Sequence vocabulary (before ++ (waitingTokens group.waiting ++ more)) (items ++ [tree])
        unit) :
    Holds vocabulary { group with items := item :: group.items, waiting := [] }
      (tokens ++ more) where
  known symbol member := by
    rcases List.mem_cons.mp member with same | member
    · exact known symbol same.symm
    · exact holds.known symbol member
  functions _ member := absurd member List.not_mem_nil
  sequence := by
    obtain ⟨before, rfl, sequence⟩ := holds.sequence
    refine ⟨before ++ (waitingTokens group.waiting ++ more), ?_, fun items related => ?_⟩
    · rw [List.append_assoc]
      exact (List.append_nil _).symm
    · rcases related with _ | ⟨folds, related⟩
      rw [List.reverse_cons]
      exact reads folds (sequence _ related)

/-- The item that an operand becomes when functions wait for it. -/
def call (waiting : List String) (node : Node) : Node :=
  waiting.foldl (fun argument name => .function name [argument]) node

/-- A call is an operand, and folds as its argument does. -/
theorem folds_call (waiting : List String) {node : Node} (operand : node.isSign = false) :
    (call waiting node).isSign = false ∧ ∀ tree, Folds foldOrder (call waiting node) tree →
      ∃ folded, Folds foldOrder node folded ∧ call waiting folded = tree := by
  induction waiting generalizing node with
  | nil => exact ⟨operand, fun tree folds => ⟨tree, folds, rfl⟩⟩
  | cons name waiting inductionHypothesis =>
    obtain ⟨callOperand, calls⟩ := @inductionHypothesis (.function name [node]) rfl
    refine ⟨callOperand, fun tree folds => ?_⟩
    obtain ⟨last, lastFolds, rfl⟩ := calls tree folds
    obtain ⟨folded, argumentFolds, rfl⟩ := (folds_function operand).mp lastFolds
    exact ⟨folded, argumentFolds, rfl⟩

/-- The tokens of the functions stand before those of the argument. -/
theorem operand_call {waiting : List String}
    (functions : ∀ name ∈ waiting, vocabulary.IsFunction name) {more : List Token} {tree : Node}
    (operand : Operand vocabulary more tree) :
    Operand vocabulary (waitingTokens waiting ++ more) (call waiting tree) := by
  induction waiting generalizing more tree with
  | nil => exact operand
  | cons name waiting inductionHypothesis =>
    obtain ⟨function, functions⟩ := List.forall_mem_cons.mp functions
    rw [waitingTokens_cons, List.append_assoc]
    exact inductionHypothesis functions (.function function operand)

/-- One more operand. -/
theorem Holds.add (holds : Holds vocabulary group tokens) {node : Node} {more : List Token}
    (operand : node.isSign = false)
    (reads : ∀ tree, Folds foldOrder node tree → Operand vocabulary more tree) :
    Holds vocabulary (group.add node) (tokens ++ more) := by
  obtain ⟨callOperand, calls⟩ := folds_call group.waiting operand
  refine holds.push (call group.waiting node) (fun symbol equal => ?_) fun folds sequence => ?_
  · rw [equal] at callOperand
    cases callOperand
  · obtain ⟨folded, argumentFolds, rfl⟩ := calls _ (folds.folds_of_operand callOperand)
    exact .operand sequence (operand_call holds.functions (reads folded argumentFolds))

/-- One more operator. Where a function waits for an argument, the operator becomes one, and the
call never folds. -/
theorem Holds.addSign (holds : Holds vocabulary group tokens) {symbol : String}
    (known : symbol ∈ foldOrder) :
    Holds vocabulary (group.add (.sign symbol)) (tokens ++ [⟨.operator, symbol⟩]) := by
  obtain ⟨items, unit, waiting⟩ := group
  cases waiting with
  | nil =>
    refine holds.push (.sign symbol) (fun _ equal => ?_) fun folds sequence => ?_
    · cases equal
      exact known
    · obtain rfl := folds.sign_eq
      exact .operator symbol sequence
  | cons name waiting =>
    obtain ⟨callOperand, calls⟩ := @folds_call waiting (.function name [.sign symbol]) rfl
    refine holds.push (call waiting (.function name [.sign symbol])) (fun _ equal => ?_)
      fun folds _ => ?_
    · rw [equal] at callOperand
      cases callOperand
    · obtain ⟨_, argumentFolds, _⟩ := calls _ (folds.folds_of_operand callOperand)
      exact absurd argumentFolds not_folds_function_sign

/-- A unit given to the group. -/
theorem Holds.annotate (holds : Holds vocabulary group tokens) (idle : group.waiting = [])
    {contents : List Token} {atoms : List UnitAtom} {unit : CompoundUnit Float}
    (pieces : contents.mapM (UnitAtom.ofToken vocabulary.catalog) = .ok atoms)
    (given : CompoundUnit.ofAtoms atoms = .ok unit) :
    Holds vocabulary { group with unit := unit }
      (tokens ++ ⟨.bracket, "["⟩ :: (contents ++ [⟨.bracket, "]"⟩])) where
  known := holds.known
  functions := holds.functions
  sequence := by
    obtain ⟨before, rfl, sequence⟩ := holds.sequence
    refine ⟨before ++ ⟨.bracket, "["⟩ :: (contents ++ [⟨.bracket, "]"⟩]), ?_,
      fun items related => .bracket (sequence items related) pieces given⟩
    show _ = _ ++ waitingTokens group.waiting
    rw [idle]
    simp [waitingTokens]

/-- One more function that waits. -/
theorem Holds.await (holds : Holds vocabulary group tokens) {name : String}
    (function : vocabulary.IsFunction name) :
    Holds vocabulary { group with waiting := name :: group.waiting }
      (tokens ++ [⟨.literal, name⟩]) where
  known := holds.known
  functions := List.forall_mem_cons.mpr ⟨function, holds.functions⟩
  sequence := by
    obtain ⟨before, rfl, sequence⟩ := holds.sequence
    exact ⟨before, by rw [waitingTokens_cons, List.append_assoc], sequence⟩

/-- What a complete group folds into is a group of the grammar. -/
theorem Holds.close (holds : Holds vocabulary group tokens) (idle : group.waiting = [])
    {tree : Node} (folds : Folds foldOrder group.close tree) : Group vocabulary tokens tree := by
  obtain ⟨before, rfl, sequence⟩ := holds.sequence
  obtain ⟨operand, itemsFold, rfl⟩ := folds_group.mp folds
  obtain ⟨first, rest, resolves, level⟩ := level_of_foldsItems (by decide)
    (fun symbol member => holds.known symbol (List.mem_reverse.mp member)) itemsFold
  obtain ⟨items, related, signed⟩ := resolves_iff.mp resolves
  have sequence := sequence items.reverse
    (List.forall₂_reverse_iff.mp (by rw [List.reverse_reverse]; exact related))
  rw [List.reverse_reverse] at sequence
  rw [idle]
  exact .group (by simpa [waitingTokens] using sequence) signed level

end OpenGroup

/-- The unit that the tokens between the signs of a bracket stand for. -/
def CompoundUnit.ofContents (catalog : Catalog) (contents : List Token) :
    Except ParseError (CompoundUnit Float) := do
  ofAtoms (← contents.mapM (UnitAtom.ofToken catalog))

/-! ### What a reading has consumed -/

namespace Reading

open OpenGroup

variable {vocabulary : Vocabulary}

/-- The tokens that the open groups of a line have taken, from the outermost to the innermost. -/
inductive Consumed (vocabulary : Vocabulary) : OpenGroup → List OpenGroup → List Token → Prop
  | outermost {group : OpenGroup} {tokens : List Token} : Holds vocabulary group tokens →
      Consumed vocabulary group [] tokens
  | inner {group outer : OpenGroup} {others : List OpenGroup} {tokens more : List Token} :
      Consumed vocabulary outer others tokens → Holds vocabulary group more →
      Consumed vocabulary group (outer :: others) (tokens ++ ⟨.paren, "("⟩ :: more)

/-- What is added to the innermost group is added to the tokens. -/
theorem Consumed.extend {group changed : OpenGroup} {around : List OpenGroup}
    {tokens more : List Token} (consumed : Consumed vocabulary group around tokens)
    (keeps : ∀ taken, Holds vocabulary group taken → Holds vocabulary changed (taken ++ more)) :
    Consumed vocabulary changed around (tokens ++ more) := by
  cases consumed with
  | outermost holds => exact .outermost (keeps _ holds)
  | inner consumed holds =>
    rw [List.append_assoc, List.cons_append]
    exact .inner consumed (keeps _ holds)

/-- The tokens that a reading has taken: those of an open bracket come last. -/
def HasRead (vocabulary : Vocabulary) (reading : Reading) (tokens : List Token) : Prop :=
  match reading.bracket with
  | none => Consumed vocabulary reading.innermost reading.around tokens
  | some atoms => ∃ before contents, tokens = before ++ ⟨.bracket, "["⟩ :: contents ∧
      Consumed vocabulary reading.innermost reading.around before ∧
      contents.mapM (UnitAtom.ofToken vocabulary.catalog) = .ok atoms.reverse

theorem eq_of_deeper {reading next : Reading} (equal : reading.deeper = .ok next) :
    reading = next := by
  unfold deeper at equal
  split at equal
  · cases equal
  · cases equal; rfl

theorem gives_deeper (reading : Reading) : Gives reading.deeper reading := by
  unfold deeper
  split
  · exact .tooDeep reading
  · exact .ok reading

/-- A closed group is an operand of the group around it. -/
theorem hasRead_closeGroup {reading next : Reading} {tokens : List Token}
    (consumed : Consumed vocabulary reading.innermost reading.around tokens)
    (outside : reading.bracket = none)
    (stepped : reading.closeGroup ⟨.paren, ")"⟩ = .ok next) :
    HasRead vocabulary next (tokens ++ [⟨.paren, ")"⟩]) := by
  obtain ⟨innermost, around, bracket⟩ := reading
  obtain rfl : bracket = none := outside
  unfold closeGroup at stepped
  split at stepped
  · rename_i outer others idle surrounded
    cases stepped
    obtain rfl : around = outer :: others := surrounded
    cases consumed with
    | inner consumed holds =>
      rw [List.append_assoc, List.cons_append]
      exact consumed.extend fun _ outerHolds => outerHolds.add rfl fun tree folds =>
        .parenthesis (holds.close idle folds)
  · cases stepped

/-- A name is a constant, a reference or a function, and is read as what it is first. -/
theorem hasRead_readName {reading next : Reading} {tokens : List Token} {name : String}
    (consumed : Consumed vocabulary reading.innermost reading.around tokens)
    (outside : reading.bracket = none) (stepped : reading.readName vocabulary name = .ok next) :
    HasRead vocabulary next (tokens ++ [⟨.literal, name⟩]) := by
  obtain ⟨innermost, around, bracket⟩ := reading
  obtain rfl : bracket = none := outside
  unfold readName at stepped
  split at stepped
  · rename_i constant
    cases stepped
    refine consumed.extend fun _ holds => holds.add rfl fun tree folds => ?_
    obtain rfl := (folds_constant _ _ _).mp folds
    exact .constant (List.contains_iff_mem.mp constant)
  · rename_i notConstant
    split at stepped
    · rename_i declared
      cases stepped
      refine consumed.extend fun _ holds => holds.add rfl fun tree folds => ?_
      obtain rfl := (folds_reference _ _ _).mp folds
      exact .reference ⟨fun member => notConstant (List.contains_iff_mem.mpr member),
        List.contains_iff_mem.mp declared⟩
    · rename_i notDeclared
      split at stepped
      · rename_i function
        obtain rfl := eq_of_deeper stepped
        exact consumed.extend fun _ holds => holds.await
          ⟨fun member => notConstant (List.contains_iff_mem.mpr member),
            fun member => notDeclared (List.contains_iff_mem.mpr member),
            List.contains_iff_mem.mp function⟩
      · cases stepped

/-- A token outside of unit brackets. -/
theorem hasRead_readToken {reading next : Reading} {tokens : List Token} {token : Token}
    (operator : token.kind = .operator → token.text ∈ foldOrder)
    (consumed : Consumed vocabulary reading.innermost reading.around tokens)
    (outside : reading.bracket = none) (stepped : reading.readToken vocabulary token = .ok next) :
    HasRead vocabulary next (tokens ++ [token]) := by
  obtain ⟨kind, text⟩ := token
  cases kind with
  | number =>
    cases stepped
    rw [HasRead, add, outside]
    refine consumed.extend fun _ holds => holds.add rfl fun tree folds => ?_
    obtain rfl := (folds_number _ _ _).mp folds
    exact .number text
  | operator =>
    cases stepped
    rw [HasRead, add, outside]
    exact consumed.extend fun _ holds => holds.addSign (operator rfl)
  | literal => exact hasRead_readName consumed outside stepped
  | paren =>
    simp only [readToken] at stepped
    split at stepped
    · rename_i opening
      obtain rfl := opening
      obtain rfl := eq_of_deeper stepped
      rw [HasRead, outside]
      exact .inner consumed holds_fresh
    · split at stepped
      · rename_i closing
        obtain rfl := closing
        exact hasRead_closeGroup consumed outside stepped
      · cases stepped
  | bracket =>
    simp only [readToken] at stepped
    split at stepped
    · rename_i opening
      obtain rfl := opening
      cases stepped
      exact ⟨tokens, [], rfl, consumed, rfl⟩
    · cases stepped
  | definition => cases stepped
  | comment => cases stepped
  | whitespace => cases stepped
  | unknown => cases stepped

/-- A token in a unit bracket. -/
theorem hasRead_readUnitToken {reading next : Reading} {atoms : List UnitAtom}
    {before contents : List Token} {token : Token}
    (consumed : Consumed vocabulary reading.innermost reading.around before)
    (pieces : contents.mapM (UnitAtom.ofToken vocabulary.catalog) = .ok atoms.reverse)
    (stepped : reading.readUnitToken vocabulary atoms token = .ok next) :
    HasRead vocabulary next (before ++ ⟨.bracket, "["⟩ :: (contents ++ [token])) := by
  unfold readUnitToken at stepped
  split at stepped
  · rename_i closing
    obtain ⟨kind, text⟩ := token
    simp only [Token.isSign, Bool.and_eq_true, beq_iff_eq] at closing
    obtain ⟨rfl, rfl⟩ := closing
    obtain ⟨unit, given, stepped⟩ := bind_eq_ok.mp stepped
    obtain ⟨innermost, annotated, stepped⟩ := bind_eq_ok.mp stepped
    cases stepped
    unfold annotate at annotated
    split at annotated
    · rename_i idle
      cases annotated
      exact consumed.extend fun _ holds => holds.annotate idle pieces given
    · cases annotated
  · obtain ⟨atom, piece, stepped⟩ := bind_eq_ok.mp stepped
    cases stepped
    refine ⟨before, contents ++ [token], rfl, consumed, ?_⟩
    rw [List.mapM_append, pieces, List.mapM_cons, piece, List.reverse_cons]
    rfl

/-- One more token. -/
theorem hasRead_step {reading next : Reading} {tokens : List Token} {token : Token}
    (operator : token.kind = .operator → token.text ∈ foldOrder)
    (hasRead : HasRead vocabulary reading tokens)
    (stepped : reading.step vocabulary token = .ok next) :
    HasRead vocabulary next (tokens ++ [token]) := by
  unfold HasRead at hasRead
  unfold step at stepped
  split at stepped
  · rename_i atoms inside
    rw [inside] at hasRead
    obtain ⟨before, contents, rfl, consumed, pieces⟩ := hasRead
    rw [List.append_assoc, List.cons_append]
    exact hasRead_readUnitToken consumed pieces stepped
  · rename_i outside
    rw [outside] at hasRead
    exact hasRead_readToken operator hasRead outside stepped

/-- All tokens of a line. -/
theorem hasRead_foldlM {tokens : List Token} {reading last : Reading} {before : List Token}
    (operators : ∀ token ∈ tokens, token.kind = .operator → token.text ∈ foldOrder)
    (hasRead : HasRead vocabulary reading before)
    (read : tokens.foldlM (step vocabulary) reading = .ok last) :
    HasRead vocabulary last (before ++ tokens) := by
  induction tokens generalizing reading before with
  | nil =>
    cases read
    rw [List.append_nil]
    exact hasRead
  | cons token tokens inductionHypothesis =>
    obtain ⟨operator, operators⟩ := List.forall_mem_cons.mp operators
    rw [List.foldlM_cons] at read
    obtain ⟨next, stepped, read⟩ := bind_eq_ok.mp read
    rw [List.append_cons]
    exact inductionHypothesis operators (hasRead_step operator hasRead stepped) read

/-- What the tokens of a line fold into is a group of the grammar. -/
theorem group_of_ofTokens {tokens : List Token} {node tree : Node}
    (operators : ∀ token ∈ tokens, token.kind = .operator → token.text ∈ foldOrder)
    (read : ofTokens vocabulary tokens = .ok node) (folds : Folds foldOrder node tree) :
    Group vocabulary tokens tree := by
  obtain ⟨last, read, finished⟩ := bind_eq_ok.mp read
  have started : HasRead vocabulary start [] := Consumed.outermost holds_fresh
  have hasRead := hasRead_foldlM operators started read
  unfold finish at finished
  split at finished
  · rename_i outside idle outermost
    cases finished
    rw [HasRead, outside, outermost] at hasRead
    cases hasRead with
    | outermost holds => exact holds.close idle folds
  · cases finished

/-! ### Derivations are read -/

theorem step_number (vocabulary : Vocabulary) {reading : Reading}
    (outside : reading.bracket = none) (text : String) :
    reading.step vocabulary ⟨.number, text⟩ = .ok (reading.add (.number text)) := by
  rw [step, outside]
  rfl

theorem step_literal {reading : Reading} (outside : reading.bracket = none) (name : String) :
    reading.step vocabulary ⟨.literal, name⟩ = reading.readName vocabulary name := by
  rw [step, outside]
  rfl

theorem readName_constant {name : String} (constant : name ∈ Vocabulary.constants)
    (reading : Reading) :
    reading.readName vocabulary name = .ok (reading.add (.constant name)) := by
  rw [readName, if_pos (List.contains_iff_mem.mpr constant)]

theorem readName_reference {name : String} (reference : vocabulary.IsReference name)
    (reading : Reading) :
    reading.readName vocabulary name = .ok (reading.add (.reference name)) := by
  rw [readName, if_neg (fun found => reference.1 (List.contains_iff_mem.mp found)),
    if_pos (List.contains_iff_mem.mpr reference.2)]

theorem readName_function {name : String} (function : vocabulary.IsFunction name)
    (reading : Reading) : reading.readName vocabulary name = reading.await name := by
  rw [readName, if_neg (fun found => function.1 (List.contains_iff_mem.mp found)),
    if_neg (fun found => function.2.1 (List.contains_iff_mem.mp found)),
    if_pos (List.contains_iff_mem.mpr function.2.2)]

/-- Pieces of a bracket are collected up to its end. -/
theorem foldlM_contents {contents : List Token} (inside : ⟨.bracket, "]"⟩ ∉ contents)
    (reading : Reading) (earlier : List UnitAtom) :
    contents.foldlM (step vocabulary) { reading with bracket := some earlier } =
      (contents.mapM (UnitAtom.ofToken vocabulary.catalog)).map fun atoms =>
        { reading with bracket := some (atoms.reverse ++ earlier) } := by
  induction contents generalizing earlier with
  | nil => rfl
  | cons token contents inductionHypothesis =>
    obtain ⟨differs, inside⟩ := List.ne_and_not_mem_of_not_mem_cons inside
    have notClosing : ¬ token.isSign .bracket "]" = true := by
      intro closing
      obtain ⟨kind, text⟩ := Bool.and_eq_true_iff.mp closing
      exact differs (congrArg₂ Token.mk (eq_of_beq kind).symm (eq_of_beq text).symm)
    have stepped : step vocabulary { reading with bracket := some earlier } token =
        (UnitAtom.ofToken vocabulary.catalog token).map fun atom =>
          { reading with bracket := some (atom :: earlier) } := by
      show readUnitToken vocabulary _ earlier token = _
      unfold readUnitToken
      rw [if_neg notClosing]
      cases UnitAtom.ofToken vocabulary.catalog token <;> rfl
    rw [List.foldlM_cons, List.mapM_cons, stepped]
    cases UnitAtom.ofToken vocabulary.catalog token with
    | error cause => rfl
    | ok atom =>
      refine (inductionHypothesis inside (atom :: earlier)).trans ?_
      cases contents.mapM (UnitAtom.ofToken vocabulary.catalog) with
      | error cause => rfl
      | ok atoms =>
        refine congrArg (fun pieces => Except.ok { reading with bracket := some pieces }) ?_
        rw [List.reverse_cons, List.append_assoc, List.singleton_append]

/-- A bracket gives its unit to the innermost group, or is refused for the same reason. -/
theorem foldlM_bracket_eq {contents : List Token} (inside : ⟨.bracket, "]"⟩ ∉ contents)
    {reading : Reading} (outside : reading.bracket = none) :
    List.foldlM (step vocabulary) reading
        (⟨.bracket, "["⟩ :: (contents ++ [⟨.bracket, "]"⟩])) =
      CompoundUnit.ofContents vocabulary.catalog contents >>= fun unit =>
        (reading.innermost.annotate unit).map fun group => { reading with innermost := group } := by
  have opened : step vocabulary reading ⟨.bracket, "["⟩ =
      .ok { reading with bracket := some [] } := by
    rw [step, outside]
    rfl
  have closing : Token.isSign ⟨.bracket, "]"⟩ .bracket "]" = true := rfl
  rw [List.foldlM_cons, opened]
  show List.foldlM (step vocabulary) { reading with bracket := some [] }
    (contents ++ [⟨.bracket, "]"⟩]) = _
  rw [List.foldlM_append, foldlM_contents inside, CompoundUnit.ofContents]
  cases contents.mapM (UnitAtom.ofToken vocabulary.catalog) with
  | error cause => rfl
  | ok atoms =>
    show List.foldlM (step vocabulary) { reading with bracket := some (atoms.reverse ++ []) }
      [⟨.bracket, "]"⟩] = CompoundUnit.ofAtoms atoms >>= _
    rw [List.foldlM_cons]
    show (readUnitToken vocabulary _ (atoms.reverse ++ []) ⟨.bracket, "]"⟩ >>= _) = _
    unfold readUnitToken
    rw [if_pos closing, List.append_nil, List.reverse_reverse]
    cases CompoundUnit.ofAtoms atoms with
    | error cause => rfl
    | ok unit =>
      show (reading.innermost.annotate unit >>= _) >>= _ = (reading.innermost.annotate unit).map _
      rw [← outside]
      cases reading.innermost.annotate unit <;> rfl

/-- A whole bracket gives its unit to the innermost group, if no function waits there. -/
theorem foldlM_bracket {contents : List Token} {atoms : List UnitAtom}
    {unit : CompoundUnit Float}
    (pieces : contents.mapM (UnitAtom.ofToken vocabulary.catalog) = .ok atoms)
    (given : CompoundUnit.ofAtoms atoms = .ok unit) (items : List Node)
    (earlier : CompoundUnit Float) (around : List OpenGroup) :
    List.foldlM (step vocabulary) ⟨⟨items, earlier, []⟩, around, none⟩
        (⟨.bracket, "["⟩ :: (contents ++ [⟨.bracket, "]"⟩])) =
      .ok ⟨⟨items, unit, []⟩, around, none⟩ := by
  have inside : ⟨.bracket, "]"⟩ ∉ contents := by
    intro member
    obtain ⟨_, piece⟩ := exists_mapM_iff.mp ⟨atoms, pieces⟩ _ member
    cases piece
  have read : CompoundUnit.ofContents vocabulary.catalog contents = .ok unit :=
    bind_eq_ok.mpr ⟨atoms, pieces, given⟩
  rw [foldlM_bracket_eq inside rfl, read]
  rfl

mutual

/-- The tokens of an operand add one item to any reading. -/
theorem exists_operand {tokens : List Token} {tree : Node} :
    Operand vocabulary tokens tree →
    ∃ node, node.isSign = false ∧ Folds foldOrder node tree ∧
      ∀ reading : Reading, reading.bracket = none →
        Gives (tokens.foldlM (step vocabulary) reading) (reading.add node)
  | .number text =>
    ⟨.number text, rfl, (folds_number _ _ _).mpr rfl, fun reading outside => by
      rw [List.foldlM_cons, step_number vocabulary outside]
      exact .ok _⟩
  | @Operand.constant _ name known =>
    ⟨.constant name, rfl, (folds_constant _ _ _).mpr rfl, fun reading outside => by
      rw [List.foldlM_cons, step_literal outside, readName_constant known]
      exact .ok _⟩
  | @Operand.reference _ name known =>
    ⟨.reference name, rfl, (folds_reference _ _ _).mpr rfl, fun reading outside => by
      rw [List.foldlM_cons, step_literal outside, readName_reference known]
      exact .ok _⟩
  | @Operand.function _ name _ _ known argument => by
    obtain ⟨node, operand, folds, reads⟩ := exists_operand argument
    refine ⟨.function name [node], rfl, (folds_function operand).mpr ⟨_, folds, rfl⟩,
      fun reading outside => ?_⟩
    rw [List.foldlM_cons, step_literal outside, readName_function known]
    exact (gives_deeper _).bind (reads _ outside)
  | .parenthesis inner => by
    obtain ⟨items, unit, folds, reads⟩ := exists_group inner
    refine ⟨.group "" items.reverse unit, rfl, folds, fun reading outside => ?_⟩
    obtain ⟨innermost, around, bracket⟩ := reading
    obtain rfl : bracket = none := outside
    rw [List.foldlM_cons]
    refine (gives_deeper ⟨OpenGroup.fresh, innermost :: around, none⟩).bind ?_
    rw [List.foldlM_append]
    exact (reads (innermost :: around)).bind (.ok _)

/-- The tokens of a sequence are read into an open group. -/
theorem exists_sequence {tokens : List Token} {items : List Node} {unit : CompoundUnit Float} :
    Sequence vocabulary tokens items unit →
    ∃ nodes, List.Forall₂ FoldsItem nodes items.reverse ∧ ∀ around : List OpenGroup,
      Gives (tokens.foldlM (step vocabulary) ⟨OpenGroup.fresh, around, none⟩)
        ⟨⟨nodes, unit, []⟩, around, none⟩
  | .empty => ⟨[], .nil, fun around => .ok _⟩
  | .operand sequence operand => by
    obtain ⟨nodes, related, reads⟩ := exists_sequence sequence
    obtain ⟨node, nodeOperand, folds, readsOperand⟩ := exists_operand operand
    refine ⟨node :: nodes, ?_, fun around => ?_⟩
    · rw [List.reverse_concat]
      exact .cons (.operand nodeOperand folds) related
    · rw [List.foldlM_append]
      exact (reads around).bind (readsOperand _ rfl)
  | .operator symbol sequence => by
    obtain ⟨nodes, related, reads⟩ := exists_sequence sequence
    refine ⟨.sign symbol :: nodes, ?_, fun around => ?_⟩
    · rw [List.reverse_concat]
      exact .cons (.operator symbol) related
    · rw [List.foldlM_append]
      exact (reads around).bind (.ok _)
  | .bracket sequence pieces given => by
    obtain ⟨nodes, related, reads⟩ := exists_sequence sequence
    refine ⟨nodes, related, fun around => ?_⟩
    rw [List.foldlM_append]
    exact (reads around).bind (.inl (foldlM_bracket pieces given _ _ _))

/-- The tokens of a group are read into an open group that folds into its tree. -/
theorem exists_group {tokens : List Token} {tree : Node} :
    Group vocabulary tokens tree →
    ∃ nodes unit, Folds foldOrder (.group "" nodes.reverse unit) tree ∧
      ∀ around : List OpenGroup,
        Gives (tokens.foldlM (step vocabulary) ⟨OpenGroup.fresh, around, none⟩)
          ⟨⟨nodes, unit, []⟩, around, none⟩
  | @Group.group _ _ _ given _ _ _ sequence signed level => by
    obtain ⟨nodes, related, reads⟩ := exists_sequence sequence
    have resolves := resolves_iff.mpr ⟨_, List.forall₂_reverse_iff.mp
      (by rw [List.reverse_reverse]; exact related), signed⟩
    exact ⟨nodes, given, folds_group.mpr ⟨_, foldsItems_of_level (by decide) resolves level, rfl⟩,
      reads⟩

end

/-- The tokens of a group of the grammar are read into a tree that folds into that of the group,
as far as depth allows. -/
theorem exists_ofTokens {tokens : List Token} {tree : Node} (group : Group vocabulary tokens tree) :
    ∃ node, Folds foldOrder node tree ∧ Gives (ofTokens vocabulary tokens) node := by
  obtain ⟨nodes, unit, folds, reads⟩ := exists_group group
  exact ⟨.group "" nodes.reverse unit, folds, (reads []).bind (.ok _)⟩

end Reading

end UnitSheet
