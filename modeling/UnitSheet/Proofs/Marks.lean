/-
This file reads trees from left to right, before and after a folding pass.

A pass is done with its operator: it ends in a tree in which that operator is nowhere unfolded
(`IsFolded`), and such a tree it leaves as it is. It loses nothing and moves nothing: the marks of
the tree, from left to right, are those from before, with each sign of the operator in its
place as an operator and a zero in front of a minus that nothing stands before (`marks_of_fold`).
-/

import UnitSheet.Proofs.Expressions

namespace UnitSheet

/-! ### The marks of a tree -/

/-- What a tree shows from left to right. A sign is not yet folded, an operator is. -/
inductive Mark where
  | number (text : String)
  | reference (name : String)
  | constant (name : String)
  | call (name : String)
  | callEnd
  | sign (symbol : String)
  | operator (symbol : String)
  | opening (label : String)
  | closing (unit : CompoundUnit Float)
  | bracket (label : String)

namespace Mark

/-- Whether a group begins with a mark. -/
def isOpening : Mark → Bool
  | opening _ => true
  | _ => false

/-- What folding one operator makes of a mark, given whether it is the first of a group. -/
def folded (symbol : String) (isFirst : Bool) : Mark → List Mark
  | sign found =>
    if found = symbol then
      if isFirst ∧ symbol = "-" then [number "0", operator symbol] else [operator symbol]
    else [sign found]
  | mark => [mark]

/-- What folding one operator makes of marks, given whether they begin a group. -/
def foldedAll (symbol : String) (isFirst : Bool) : List Mark → List Mark
  | [] => []
  | mark :: rest => mark.folded symbol isFirst ++ foldedAll symbol mark.isOpening rest

end Mark

namespace Node

mutual

/-- The marks of a tree, an operator between its operands. -/
def marks : Node → List Mark
  | number text => [.number text]
  | reference name => [.reference name]
  | constant name => [.constant name]
  | function name arguments => .call name :: (marksOfAll arguments ++ [.callEnd])
  | operation symbol [] => [.operator symbol]
  | operation symbol (left :: others) => marks left ++ .operator symbol :: marksOfAll others
  | sign symbol => [.sign symbol]
  | group label items unit => .opening label :: (marksOfAll items ++ [.closing unit])
  | bracket label => [.bracket label]

/-- The marks of several trees, one after the other. -/
def marksOfAll : List Node → List Mark
  | [] => []
  | node :: rest => marks node ++ marksOfAll rest

end

attribute [local simp] marks marksOfAll Mark.foldedAll Mark.folded Mark.isOpening

theorem marksOfAll_append (before after : List Node) :
    marksOfAll (before ++ after) = marksOfAll before ++ marksOfAll after := by
  induction before with
  | nil => rfl
  | cons node rest inductionHypothesis =>
    rw [List.cons_append, marksOfAll, marksOfAll, inductionHypothesis, List.append_assoc]

/-! ### Induction over a pass -/

/-- The left operand of a sign is the operand before it; only a minus goes without one, and gets
a zero. -/
theorem leftOperand_cases {symbol : String} {before : Option Node} {left : Node}
    (equal : leftOperand symbol before = .ok left) :
    (before = none ∧ symbol = "-" ∧ left = .number "0") ∨
      (before = some left ∧ left.isSign = false) := by
  cases before with
  | none => exact .inl ⟨rfl, leftOperand_none equal⟩
  | some kept =>
    cases kind : kept.isSign with
    | true =>
      obtain ⟨found, rfl⟩ := exists_eq_sign kind
      cases equal
    | false =>
      cases (leftOperand_some symbol kind).symm.trans equal
      exact .inr ⟨rfl, kind⟩

/-- What it takes for a relation to hold between every tree and what a pass makes of it: it holds
between nodes of each kind if it holds between their parts. -/
structure KeptByPass (symbol : String) (related : Node → Node → Prop) : Prop where
  number : ∀ text, related (.number text) (.number text)
  reference : ∀ name, related (.reference name) (.reference name)
  constant : ∀ name, related (.constant name) (.constant name)
  function : ∀ name argument others folded, related argument folded →
    related (.function name (argument :: others)) (.function name [folded])
  operation : ∀ operator left right first second, related left first → related right second →
    related (.operation operator [left, right]) (.operation operator [first, second])
  group : ∀ label items unit others, Pass symbol none items others →
    (∀ item ∈ items, ∀ folded, fold symbol item = .ok folded → related item folded) →
    related (.group label items unit) (.group label others unit)

/-- Induction over what a pass makes of a tree. -/
theorem KeptByPass.of_fold {symbol : String} {related : Node → Node → Prop}
    (kept : KeptByPass symbol related) {node tree : Node} (equal : fold symbol node = .ok tree) :
    related node tree := by
  match node with
  | .number text => cases equal; exact kept.number text
  | .reference name => cases equal; exact kept.reference name
  | .constant name => cases equal; exact kept.constant name
  | .sign _ | .bracket _ | .function _ [] => cases equal
  | .operation _ [] | .operation _ [_] | .operation _ (_ :: _ :: _ :: _) => cases equal
  | .function name (argument :: others) =>
    cases kind : argument.isSign with
    | true =>
      obtain ⟨found, rfl⟩ := exists_eq_sign kind
      cases equal
    | false =>
      rw [fold_call kind] at equal
      obtain ⟨folded, argumentEqual, equal⟩ := bind_eq_ok.mp equal
      cases equal
      exact kept.function name argument others folded (kept.of_fold argumentEqual)
  | .operation operator [left, right] =>
    obtain ⟨first, leftEqual, second, rightEqual, rfl⟩ := fold_operation.mp equal
    exact kept.operation operator left right first second (kept.of_fold leftEqual)
      (kept.of_fold rightEqual)
  | .group label items unit =>
    obtain ⟨others, itemsEqual, rfl⟩ := fold_group.mp equal
    exact kept.group label items unit others (pass_of_foldItems none items others itemsEqual)
      fun item member folded itemEqual => kept.of_fold itemEqual
termination_by sizeOf node

/-! ### Trees that a pass has nothing to do in -/

/-- A tree that can be folded and in which one operator is nowhere unfolded. -/
inductive IsFolded (symbol : String) : Node → Prop
  | number (text : String) : IsFolded symbol (.number text)
  | reference (name : String) : IsFolded symbol (.reference name)
  | constant (name : String) : IsFolded symbol (.constant name)
  | function (name : String) {argument : Node} : IsFolded symbol argument →
      IsFolded symbol (.function name [argument])
  | operation (operator : String) {left right : Node} : IsFolded symbol left →
      IsFolded symbol right → IsFolded symbol (.operation operator [left, right])
  | group (label : String) {items : List Node} (unit : CompoundUnit Float) :
      .sign symbol ∉ items → (∀ item ∈ items, item.isSign = false → IsFolded symbol item) →
      IsFolded symbol (.group label items unit)

variable {symbol : String} {tree : Node}

theorem IsFolded.isSign (folded : IsFolded symbol tree) : tree.isSign = false := by
  cases folded <;> rfl

/-- The sign of a folded operator is nowhere in the tree. -/
theorem IsFolded.not_within (folded : IsFolded symbol tree) : ¬ Within (.sign symbol) tree := by
  induction folded with
  | number | reference | constant =>
    rw [within_iff_eq rfl]
    exact nofun
  | function _ _ argumentFree =>
    intro within
    cases within with
    | inside member within =>
      rw [List.mem_singleton.mp member] at within
      exact argumentFree within
  | operation _ _ _ leftFree rightFree =>
    intro within
    cases within with
    | inside member within =>
      rcases List.mem_pair.mp member with rfl | rfl
      · exact leftFree within
      · exact rightFree within
  | group _ _ absent _ itemsFree =>
    intro within
    cases within with
    | @inside item _ member within =>
      cases kind : item.isSign with
      | true =>
        obtain ⟨found, rfl⟩ := exists_eq_sign kind
        exact absent ((within_iff_eq rfl).mp within ▸ member)
      | false => exact itemsFree item member kind within

/-- Items without the sign of an operator pass as they are, if the operands among them do. -/
theorem foldItems_eq_self {items : List Node} (absent : .sign symbol ∉ items)
    (fixed : ∀ item ∈ items, item.isSign = false → fold symbol item = .ok item)
    (before : Option Node) : foldItems symbol before items = .ok (before.toList ++ items) := by
  induction items generalizing before with
  | nil => rw [foldItems, List.append_nil]
  | cons item rest inductionHypothesis =>
    obtain ⟨differs, absent⟩ := List.ne_and_not_mem_of_not_mem_cons absent
    obtain ⟨itemFixed, fixed⟩ := List.forall_mem_cons.mp fixed
    have later := inductionHypothesis absent fixed (some item)
    cases kind : item.isSign with
    | false =>
      rw [foldItems_operand kind, itemFixed kind]
      exact bind_eq_ok.mpr ⟨item, rfl, bind_eq_ok.mpr ⟨_, later, rfl⟩⟩
    | true =>
      obtain ⟨found, rfl⟩ := exists_eq_sign kind
      rw [foldItems_other fun same => differs (congrArg Node.sign same.symm)]
      exact bind_eq_ok.mpr ⟨_, later, rfl⟩

/-- A folded tree passes as it is. -/
theorem IsFolded.fold_eq (folded : IsFolded symbol tree) : fold symbol tree = .ok tree := by
  induction folded with
  | number | reference | constant => rw [fold]
  | function _ argument argumentEqual =>
    exact (fold_function argument.isSign).mpr ⟨_, argumentEqual, rfl⟩
  | operation _ _ _ leftEqual rightEqual =>
    exact fold_operation.mpr ⟨_, leftEqual, _, rightEqual, rfl⟩
  | group _ _ absent _ itemsEqual =>
    exact fold_group.mpr ⟨_, foldItems_eq_self absent itemsEqual none, rfl⟩

theorem isFolded_leftOperand {before : Option Node} {left : Node}
    (equal : leftOperand symbol before = .ok left)
    (kept : ∀ node ∈ before, node.isSign = false → IsFolded symbol node) :
    IsFolded symbol left := by
  rcases leftOperand_cases equal with ⟨_, _, rfl⟩ | ⟨rfl, operand⟩
  · exact .number "0"
  · exact kept left rfl operand

/-- The operands among the items that a pass ends in are folded, if a pass folds each operand. -/
theorem isFolded_of_pass {before : Option Node} {items others : List Node}
    (pass : Pass symbol before items others)
    (each : ∀ item ∈ items, ∀ folded, fold symbol item = .ok folded → IsFolded symbol folded)
    (kept : ∀ node ∈ before, node.isSign = false → IsFolded symbol node) :
    ∀ item ∈ others, item.isSign = false → IsFolded symbol item := by
  induction pass with
  | finish before => simpa using kept
  | operand equal pass inductionHypothesis =>
    obtain ⟨nodeFolds, each⟩ := List.forall_mem_cons.mp each
    have later := inductionHypothesis each (by simpa using fun _ => nodeFolds _ equal)
    exact List.forall_mem_append.mpr ⟨by simpa using kept, later⟩
  | other differs pass inductionHypothesis =>
    have each := (List.forall_mem_cons.mp each).2
    have later := inductionHypothesis each (by simp [isSign])
    exact List.forall_mem_append.mpr ⟨by simpa using kept, later⟩
  | same leftEqual rightEqual pass inductionHypothesis =>
    obtain ⟨rightFolds, each⟩ := List.forall_mem_cons.mp (List.forall_mem_cons.mp each).2
    have leftFolded := isFolded_leftOperand leftEqual kept
    have operation := IsFolded.operation symbol leftFolded (rightFolds _ rightEqual)
    exact inductionHypothesis each (by simpa using fun _ => operation)

/-- What a pass ends in is folded. -/
theorem isFolded_of_fold {node : Node} (equal : fold symbol node = .ok tree) :
    IsFolded symbol tree := by
  have kept : KeptByPass symbol fun _ tree => IsFolded symbol tree := {
    number := .number
    reference := .reference
    constant := .constant
    function := fun name _ _ _ argument => .function name argument
    operation := fun operator _ _ _ _ left right => .operation operator left right
    group := fun label items unit others pass each => by
      have absent : .sign symbol ∉ others := fun member =>
        (sign_mem_of_pass pass member).elim List.not_mem_nil fun found => found.1 rfl
      exact .group label unit absent (isFolded_of_pass pass each nofun) }
  exact kept.of_fold equal

/-! ### The marks that a pass leaves -/

mutual

/-- Whether no call in a tree has more than one argument. -/
def hasUnaryCalls : Node → Bool
  | function _ arguments => decide (arguments.length ≤ 1) && allHaveUnaryCalls arguments
  | operation _ operands => allHaveUnaryCalls operands
  | group _ items _ => allHaveUnaryCalls items
  | number _ | reference _ | constant _ | sign _ | bracket _ => true

/-- Whether no call in several trees has more than one argument. -/
def allHaveUnaryCalls : List Node → Bool
  | [] => true
  | node :: rest => node.hasUnaryCalls && allHaveUnaryCalls rest

end

theorem hasUnaryCalls_of_mem {nodes : List Node} {node : Node}
    (unary : allHaveUnaryCalls nodes = true) (member : node ∈ nodes) :
    node.hasUnaryCalls = true := by
  induction nodes with
  | nil => cases member
  | cons head rest inductionHypothesis =>
    obtain ⟨headUnary, restUnary⟩ := Bool.and_eq_true_iff.mp unary
    rcases List.mem_cons.mp member with rfl | member
    · exact headUnary
    · exact inductionHypothesis restUnary member

/-- The parts of a tree have no calls that the tree does not have. -/
theorem hasUnaryCalls_of_child {node child : Node} (unary : node.hasUnaryCalls = true)
    (member : child ∈ node.children) : child.hasUnaryCalls = true := by
  cases node with
  | function name arguments =>
    exact hasUnaryCalls_of_mem (Bool.and_eq_true_iff.mp unary).2 member
  | operation symbol operands => exact hasUnaryCalls_of_mem unary member
  | group label items unit => exact hasUnaryCalls_of_mem unary member
  | number | reference | constant | sign | bracket => cases member

/-- A pass turns the marks of one tree into those of another, whatever marks stand around them. -/
def TurnsInto (symbol : String) (node tree : Node) : Prop :=
  ∀ isFirst rest, Mark.foldedAll symbol isFirst (node.marks ++ rest) =
    tree.marks ++ Mark.foldedAll symbol false rest

/-- What a pass makes of the marks of a group, the item kept back and those after it. -/
theorem foldedAll_marks_of_pass {before : Option Node} {items others : List Node}
    (pass : Pass symbol before items others)
    (each : ∀ item ∈ items, ∀ folded, fold symbol item = .ok folded → TurnsInto symbol item folded)
    (unit : CompoundUnit Float) (rest : List Mark) :
    marksOfAll before.toList ++ Mark.foldedAll symbol before.isNone
        (marksOfAll items ++ .closing unit :: rest) =
      marksOfAll others ++ .closing unit :: Mark.foldedAll symbol false rest := by
  induction pass with
  | finish before => rfl
  | @operand before node folded items others equal pass inductionHypothesis =>
    obtain ⟨nodeTurns, each⟩ := List.forall_mem_cons.mp each
    rw [marksOfAll_append, List.append_assoc, ← inductionHypothesis each, marksOfAll,
      List.append_assoc, nodeTurns folded equal]
    simp
  | @other before found items others differs pass inductionHypothesis =>
    have each := (List.forall_mem_cons.mp each).2
    rw [marksOfAll_append, List.append_assoc, ← inductionHypothesis each]
    simp [differs]
  | @same before left right folded items others leftEqual rightEqual pass inductionHypothesis =>
    obtain ⟨rightTurns, each⟩ := List.forall_mem_cons.mp (List.forall_mem_cons.mp each).2
    have rightMarks := rightTurns folded rightEqual false
    rw [← inductionHypothesis each]
    rcases leftOperand_cases leftEqual with ⟨rfl, rfl, rfl⟩ | ⟨rfl, _⟩
    · simp [rightMarks]
    · simp [rightMarks]

/-- A pass turns the marks of a tree into those of the tree that it ends in. -/
theorem turnsInto_of_fold {node : Node} (unary : node.hasUnaryCalls = true)
    (equal : fold symbol node = .ok tree) : TurnsInto symbol node tree := by
  have kept : KeptByPass symbol fun node tree =>
      node.hasUnaryCalls = true → TurnsInto symbol node tree := {
    number := fun _ _ _ _ => rfl
    reference := fun _ _ _ _ => rfl
    constant := fun _ _ _ _ => rfl
    function := fun name argument others folded turns unary isFirst rest => by
      have single : others = [] := by
        simpa using of_decide_eq_true (Bool.and_eq_true_iff.mp unary).1
      have argumentMarks := turns (hasUnaryCalls_of_child unary List.mem_cons_self) false
      subst single
      simp [argumentMarks]
    operation := fun operator left right first second leftTurns rightTurns unary isFirst rest => by
      have leftMarks := leftTurns (hasUnaryCalls_of_child unary List.mem_cons_self) isFirst
      have rightMarks := rightTurns
        (hasUnaryCalls_of_child unary (List.mem_cons_of_mem _ List.mem_cons_self)) false
      simp [leftMarks, rightMarks]
    group := fun label items unit others pass each unary isFirst rest => by
      have itemTurns : ∀ item ∈ items, ∀ folded, fold symbol item = .ok folded →
          TurnsInto symbol item folded := fun item member folded equal =>
        each item member folded equal (hasUnaryCalls_of_child unary member)
      simpa using foldedAll_marks_of_pass pass itemTurns unit rest }
  exact kept.of_fold equal unary

/-- The marks after a pass are those before it, with each sign of its operator as an operator in
its place, and a zero in front of a minus with which a group begins. -/
theorem marks_of_fold {node : Node} (unary : node.hasUnaryCalls = true)
    (equal : fold symbol node = .ok tree) :
    tree.marks = Mark.foldedAll symbol false node.marks := by
  have turns := turnsInto_of_fold unary equal false []
  rw [List.append_nil, Mark.foldedAll, List.append_nil] at turns
  exact turns.symm

/-- A pass is done with its operator: where it ends, the operator is nowhere unfolded, and another
pass changes nothing. It keeps all that it finds, in the same order from left to right: other
signs, operands, names, groups and their units stay, signs of the operator become operators in
their place, and all that is added is a zero in front of a minus with which a group begins. -/
theorem fold_settles {symbol : String} {node tree : Node} (unary : node.hasUnaryCalls = true)
    (equal : fold symbol node = .ok tree) :
    ¬ Within (.sign symbol) tree ∧ fold symbol tree = .ok tree ∧
      tree.marks = Mark.foldedAll symbol false node.marks := by
  have folded : IsFolded symbol tree := isFolded_of_fold equal
  exact ⟨folded.not_within, folded.fold_eq, marks_of_fold unary equal⟩

/-- The pass for the minus over `-1*sqrt(4-2-e [m])-x`; the sign of the product stays one. -/
theorem fold_settles_differences :
    let meters : CompoundUnit Float := ⟨[⟨NamedUnit.custom "m", 1⟩]⟩
    let node := Node.group "" [.sign "-", .number "1", .sign "*",
      .function "sqrt" [.group "" [.number "4", .sign "-", .number "2", .sign "-", .constant "e"]
        meters], .sign "-", .reference "x"] CompoundUnit.empty
    node.hasUnaryCalls = true ∧ ∃ tree, fold "-" node = .ok tree ∧
      ¬ Within (.sign "-") tree ∧ fold "-" tree = .ok tree ∧
      tree.marks = [.opening "", .number "0", .operator "-", .number "1", .sign "*", .call "sqrt",
        .opening "", .number "4", .operator "-", .number "2", .operator "-", .constant "e",
        .closing meters, .callEnd, .operator "-", .reference "x",
        .closing CompoundUnit.empty] := by
  intro meters node
  have unary : node.hasUnaryCalls = true := rfl
  have passed : ∃ tree, fold "-" node = .ok tree := ⟨_, rfl⟩
  obtain ⟨tree, equal⟩ := passed
  exact ⟨unary, tree, equal, fold_settles unary equal⟩

end Node

end UnitSheet
