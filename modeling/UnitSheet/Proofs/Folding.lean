/-
This file says what all folding passes make of a tree.

`Folds` is what several passes and the check of operands make of a tree. For every kind of
node but a group it goes down to the operands. For a group it is the grammar: its items fold
into one operand exactly when they are an alternation, perhaps after a leading minus, and the
operand is the tree of that alternation (`level_of_foldsItems`, `foldsItems_of_level`).
-/

import Mathlib.Data.List.Forall2
import UnitSheet.Proofs.Pass

namespace UnitSheet.Node

open Grammar

attribute [local simp] fold checkOperands checkAllOperands

/-! ### Several passes over a tree -/

/-- What a tree becomes when the signs of several operators are folded one after the other and
every group then holds one operand. -/
def Folds : List String → Node → Node → Prop
  | [], node, tree => node = tree ∧ checkOperands node = .ok ()
  | symbol :: symbols, node, tree =>
    ∃ folded, fold symbol node = .ok folded ∧ Folds symbols folded tree

/-- What the items of a group become in the same passes, if that is one operand. -/
def FoldsItems : List String → List Node → Node → Prop
  | [], items, operand => items = [operand] ∧ checkOperands operand = .ok ()
  | symbol :: symbols, items, operand =>
    ∃ folded, foldItems symbol none items = .ok folded ∧ FoldsItems symbols folded operand

/-- A node that no pass changes stays what it is. -/
theorem folds_of_fixed {node tree : Node} (symbols : List String)
    (fixed : ∀ symbol, fold symbol node = .ok node) (checked : checkOperands node = .ok ()) :
    Folds symbols node tree ↔ node = tree := by
  induction symbols with
  | nil => exact and_iff_left checked
  | cons symbol symbols inductionHypothesis =>
    refine Iff.trans ⟨?_, fun folds => ⟨node, fixed symbol, folds⟩⟩ inductionHypothesis
    rintro ⟨folded, equal, folds⟩
    rw [fixed symbol] at equal
    cases equal
    exact folds

theorem folds_number (symbols : List String) (text : String) (tree : Node) :
    Folds symbols (.number text) tree ↔ .number text = tree :=
  folds_of_fixed symbols (fun _ => by simp) (by simp)

theorem folds_constant (symbols : List String) (name : String) (tree : Node) :
    Folds symbols (.constant name) tree ↔ .constant name = tree :=
  folds_of_fixed symbols (fun _ => by simp) (by simp)

theorem folds_reference (symbols : List String) (name : String) (tree : Node) :
    Folds symbols (.reference name) tree ↔ .reference name = tree :=
  folds_of_fixed symbols (fun _ => by simp) (by simp)

/-- A call folds as its first argument does. -/
theorem fold_call {symbol : String} {argument : Node} (operand : argument.isSign = false)
    (name : String) (others : List Node) :
    fold symbol (.function name (argument :: others)) = (do
      return .function name [← fold symbol argument]) := by
  cases argument <;> first | rfl | cases operand

theorem fold_function {symbol name : String} {argument tree : Node}
    (operand : argument.isSign = false) :
    fold symbol (.function name [argument]) = .ok tree ↔
      ∃ folded, fold symbol argument = .ok folded ∧ .function name [folded] = tree := by
  rw [fold_call operand]
  simp only [bind_eq_ok, pure, Except.pure, Except.ok.injEq]

theorem fold_operation {symbol operator : String} {left right tree : Node} :
    fold symbol (.operation operator [left, right]) = .ok tree ↔
      ∃ first, fold symbol left = .ok first ∧ ∃ second, fold symbol right = .ok second ∧
        .operation operator [first, second] = tree := by
  rw [fold]
  simp only [bind_eq_ok, pure, Except.pure, Except.ok.injEq]

theorem fold_group {symbol label : String} {items : List Node} {unit : CompoundUnit Float}
    {tree : Node} :
    fold symbol (.group label items unit) = .ok tree ↔
      ∃ folded, foldItems symbol none items = .ok folded ∧ .group label folded unit = tree := by
  rw [fold]
  simp only [bind_eq_ok, pure, Except.pure, Except.ok.injEq]

theorem checkOperands_function {name : String} {argument : Node} :
    checkOperands (.function name [argument]) = .ok () ↔ checkOperands argument = .ok () := by
  rw [checkOperands, checkAllOperands, checkAllOperands, bind_eq_ok]
  exact ⟨fun ⟨(), checked, _⟩ => checked, fun checked => ⟨(), checked, rfl⟩⟩

theorem checkOperands_operation {operator : String} {left right : Node} :
    checkOperands (.operation operator [left, right]) = .ok () ↔
      checkOperands left = .ok () ∧ checkOperands right = .ok () := by
  rw [checkOperands, checkAllOperands, checkAllOperands, checkAllOperands, bind_eq_ok]
  constructor
  · rintro ⟨⟨⟩, leftChecked, rest⟩
    obtain ⟨⟨⟩, rightChecked, _⟩ := bind_eq_ok.mp rest
    exact ⟨leftChecked, rightChecked⟩
  · rintro ⟨leftChecked, rightChecked⟩
    exact ⟨(), leftChecked, bind_eq_ok.mpr ⟨(), rightChecked, rfl⟩⟩

theorem checkOperands_group {label : String} {items : List Node} {unit : CompoundUnit Float} :
    checkOperands (.group label items unit) = .ok () ↔
      ∃ operand, items = [operand] ∧ checkOperands operand = .ok () := by
  match items with
  | [] => simp
  | [item] => simp
  | _ :: _ :: _ => simp

/-- A call folds as its argument does. -/
theorem folds_function {symbols : List String} {name : String} {argument tree : Node}
    (operand : argument.isSign = false) :
    Folds symbols (.function name [argument]) tree ↔
      ∃ folded, Folds symbols argument folded ∧ .function name [folded] = tree := by
  induction symbols generalizing argument with
  | nil =>
    constructor
    · rintro ⟨rfl, checked⟩
      exact ⟨argument, ⟨rfl, checkOperands_function.mp checked⟩, rfl⟩
    · rintro ⟨_, ⟨rfl, checked⟩, rfl⟩
      exact ⟨rfl, checkOperands_function.mpr checked⟩
  | cons symbol symbols inductionHypothesis =>
    constructor
    · rintro ⟨_, passed, later⟩
      obtain ⟨folded, equal, rfl⟩ := (fold_function operand).mp passed
      obtain ⟨last, folds, rfl⟩ := (inductionHypothesis (isSign_of_fold equal).2).mp later
      exact ⟨last, ⟨folded, equal, folds⟩, rfl⟩
    · rintro ⟨last, ⟨folded, equal, folds⟩, rfl⟩
      exact ⟨_, (fold_function operand).mpr ⟨folded, equal, rfl⟩,
        (inductionHypothesis (isSign_of_fold equal).2).mpr ⟨last, folds, rfl⟩⟩

/-- An operator is no argument. -/
theorem not_folds_function_sign {symbol : String} {symbols : List String} {name found : String}
    {tree : Node} : ¬ Folds (symbol :: symbols) (.function name [.sign found]) tree := by
  rintro ⟨_, equal, _⟩
  rw [fold] at equal
  cases equal

/-- An operation folds as its operands do. -/
theorem folds_operation {symbols : List String} {operator : String} {left right tree : Node} :
    Folds symbols (.operation operator [left, right]) tree ↔
      ∃ first, Folds symbols left first ∧ ∃ second, Folds symbols right second ∧
        .operation operator [first, second] = tree := by
  induction symbols generalizing left right with
  | nil =>
    constructor
    · rintro ⟨rfl, checked⟩
      obtain ⟨leftChecked, rightChecked⟩ := checkOperands_operation.mp checked
      exact ⟨left, ⟨rfl, leftChecked⟩, right, ⟨rfl, rightChecked⟩, rfl⟩
    · rintro ⟨_, ⟨rfl, leftChecked⟩, _, ⟨rfl, rightChecked⟩, rfl⟩
      exact ⟨rfl, checkOperands_operation.mpr ⟨leftChecked, rightChecked⟩⟩
  | cons symbol symbols inductionHypothesis =>
    constructor
    · rintro ⟨_, passed, later⟩
      obtain ⟨first, leftEqual, second, rightEqual, rfl⟩ := fold_operation.mp passed
      obtain ⟨lastLeft, leftFolds, lastRight, rightFolds, rfl⟩ := inductionHypothesis.mp later
      exact ⟨lastLeft, ⟨first, leftEqual, leftFolds⟩, lastRight, ⟨second, rightEqual, rightFolds⟩,
        rfl⟩
    · rintro ⟨lastLeft, ⟨first, leftEqual, leftFolds⟩, lastRight, ⟨second, rightEqual, rightFolds⟩,
        rfl⟩
      exact ⟨_, fold_operation.mpr ⟨first, leftEqual, second, rightEqual, rfl⟩,
        inductionHypothesis.mpr ⟨lastLeft, leftFolds, lastRight, rightFolds, rfl⟩⟩

/-- A group folds as its items do. -/
theorem folds_group {symbols : List String} {label : String} {items : List Node}
    {unit : CompoundUnit Float} {tree : Node} :
    Folds symbols (.group label items unit) tree ↔
      ∃ operand, FoldsItems symbols items operand ∧ .group label [operand] unit = tree := by
  induction symbols generalizing items with
  | nil =>
    constructor
    · rintro ⟨rfl, checked⟩
      obtain ⟨operand, rfl, checked⟩ := checkOperands_group.mp checked
      exact ⟨operand, ⟨rfl, checked⟩, rfl⟩
    · rintro ⟨operand, ⟨rfl, checked⟩, rfl⟩
      exact ⟨rfl, checkOperands_group.mpr ⟨operand, rfl, checked⟩⟩
  | cons symbol symbols inductionHypothesis =>
    constructor
    · rintro ⟨_, passed, later⟩
      obtain ⟨folded, equal, rfl⟩ := fold_group.mp passed
      obtain ⟨operand, folds, rfl⟩ := inductionHypothesis.mp later
      exact ⟨operand, ⟨folded, equal, folds⟩, rfl⟩
    · rintro ⟨operand, ⟨folded, equal, folds⟩, rfl⟩
      exact ⟨_, fold_group.mpr ⟨folded, equal, rfl⟩, inductionHypothesis.mpr ⟨operand, folds, rfl⟩⟩

/-! ### All passes over the items of a group -/

/-- Gathered operands fold when the operands do. -/
theorem folds_gather {symbols : List String} (symbol : String) {tree node : Node}
    {folded later : List (String × Node)} (folds : Folds symbols tree node)
    (each : Each (Folds symbols) folded later) :
    Folds symbols (gather symbol tree folded).1 (gather symbol node later).1 ∧
      Each (Folds symbols) (gather symbol tree folded).2 (gather symbol node later).2 := by
  induction each generalizing tree node with
  | nil => exact ⟨folds, .nil⟩
  | @cons found next last _ _ nextFolds each inductionHypothesis =>
    by_cases same : found = symbol
    · subst same
      rw [gather_same, gather_same]
      exact inductionHypothesis (folds_operation.mpr ⟨node, folds, last, nextFolds, rfl⟩)
    · rw [gather_other same, gather_other same]
      exact ⟨folds, .cons (inductionHypothesis nextFolds).1 (inductionHypothesis nextFolds).2⟩

/-- What gathered operands fold into is gathered from what the operands fold into. -/
theorem exists_of_folds_gather {symbols : List String} (symbol : String) {tree first : Node}
    {folded rest : List (String × Node)}
    (folds : Folds symbols (gather symbol tree folded).1 first)
    (each : Each (Folds symbols) (gather symbol tree folded).2 rest) :
    ∃ node later, Folds symbols tree node ∧ Each (Folds symbols) folded later ∧
      gather symbol node later = (first, rest) := by
  induction folded generalizing tree first rest with
  | nil => cases each; exact ⟨first, [], folds, .nil, rfl⟩
  | cons head folded inductionHypothesis =>
    obtain ⟨found, next⟩ := head
    by_cases same : found = symbol
    · subst same
      rw [gather_same] at folds each
      obtain ⟨node, later, folds, eachLater, gathered⟩ := inductionHypothesis folds each
      obtain ⟨left, leftFolds, right, rightFolds, rfl⟩ := folds_operation.mp folds
      exact ⟨left, (found, right) :: later, leftFolds, .cons rightFolds eachLater,
        by rw [gather_same, gathered]⟩
    · rw [gather_other same] at folds each
      cases each with
      | cons nextFolds each =>
        obtain ⟨node, later, nextFolds, eachLater, gathered⟩ := inductionHypothesis nextFolds each
        exact ⟨first, (found, node) :: later, folds, .cons nextFolds eachLater,
          by rw [gather_other same, gathered]⟩

/-- The items of a group are an alternation, and this is what its operands fold into. -/
def Resolves (symbols : List String) (items : List Node) (first : Node)
    (rest : List (String × Node)) : Prop :=
  ∃ node later, Signed items node later ∧ Folds symbols node first ∧
    Each (Folds symbols) later rest

theorem Each.trans_fold {symbol : String} {symbols : List String}
    {rest folded later : List (String × Node)}
    (first : Each (fun node tree => fold symbol node = .ok tree) rest folded)
    (second : Each (Folds symbols) folded later) : Each (Folds (symbol :: symbols)) rest later := by
  induction first generalizing later with
  | nil => cases second; exact .nil
  | cons nodeEqual first inductionHypothesis =>
    cases second with
    | cons folds second => exact .cons ⟨_, nodeEqual, folds⟩ (inductionHypothesis second)

theorem Each.exists_fold {symbol : String} {symbols : List String}
    {rest later : List (String × Node)} (each : Each (Folds (symbol :: symbols)) rest later) :
    ∃ folded, Each (fun node tree => fold symbol node = .ok tree) rest folded ∧
      Each (Folds symbols) folded later := by
  induction each with
  | nil => exact ⟨[], .nil, .nil⟩
  | cons folds each inductionHypothesis =>
    obtain ⟨tree, nodeEqual, folds⟩ := folds
    obtain ⟨folded, first, second⟩ := inductionHypothesis
    exact ⟨_, .cons nodeEqual first, .cons folds second⟩

/-- Items that fold into one operand are an alternation, and the operand is its tree. The passes
start with the tightest operator, and with it the grammar loses its tightest level. -/
theorem level_of_foldsItems {symbols : List String} (distinct : symbols.Nodup)
    {items : List Node} (known : ∀ found, .sign found ∈ items → found ∈ symbols) {operand : Node}
    (folds : FoldsItems symbols items operand) :
    ∃ first rest, Resolves symbols items first rest ∧
      Level symbols.reverse first rest operand := by
  induction symbols generalizing items with
  | nil =>
    obtain ⟨rfl, checked⟩ := folds
    have kind : operand.isSign = false := by
      cases operand <;> first | rfl | cases known _ List.mem_cons_self
    exact ⟨operand, [], ⟨operand, [], .plain kind .nil, ⟨rfl, checked⟩, .nil⟩, .operand operand⟩
  | cons symbol symbols inductionHypothesis =>
    obtain ⟨fresh, distinct⟩ := List.nodup_cons.mp distinct
    obtain ⟨others, equal, folds⟩ := folds
    have pass := foldItems_eq_ok_iff.mp equal
    have othersKnown : ∀ found, .sign found ∈ others → found ∈ symbols := by
      intro found member
      rcases sign_mem_of_pass pass member with before | ⟨differs, member⟩
      · cases before
      · exact (List.mem_cons.mp (known found member)).resolve_left differs
    obtain ⟨first, rest, ⟨node, later, signed, firstFolds, each⟩, level⟩ :=
      inductionHypothesis distinct othersKnown folds
    obtain ⟨origin, originals, tree, folded, original, nodeEqual, eachFold, gathered⟩ :=
      signed_of_pass pass signed
    -- The later passes worked on gathered operands: the same can be had by folding all operands
    -- first and gathering then, which is the level of this operator.
    have gatheredNode : (gather symbol tree folded).1 = node := by rw [gathered]
    have gatheredLater : (gather symbol tree folded).2 = later := by rw [gathered]
    subst gatheredNode gatheredLater
    obtain ⟨last, lasts, lastFolds, eachLast, regathered⟩ :=
      exists_of_folds_gather symbol firstFolds each
    refine ⟨last, lasts, ⟨origin, originals, original, ⟨tree, nodeEqual, lastFolds⟩,
      eachFold.trans_fold eachLast⟩, ?_⟩
    rw [List.reverse_cons]
    refine (level_concat_iff (fun member => fresh (List.mem_reverse.mp member))).mpr ?_
    rw [regathered]
    exact level

/-- The items of an alternation fold into its tree. -/
theorem foldsItems_of_level {symbols : List String} (distinct : symbols.Nodup)
    {items : List Node} {first operand : Node} {rest : List (String × Node)}
    (resolves : Resolves symbols items first rest)
    (level : Level symbols.reverse first rest operand) : FoldsItems symbols items operand := by
  induction symbols generalizing items first rest with
  | nil =>
    obtain ⟨rfl, rfl⟩ := level_nil_iff.mp level
    obtain ⟨node, later, signed, ⟨rfl, checked⟩, each⟩ := resolves
    cases each
    cases signed
    exact ⟨rfl, checked⟩
  | cons symbol symbols inductionHypothesis =>
    obtain ⟨fresh, distinct⟩ := List.nodup_cons.mp distinct
    obtain ⟨node, later, signed, ⟨tree, nodeEqual, folds⟩, each⟩ := resolves
    obtain ⟨folded, eachFold, each⟩ := each.exists_fold
    obtain ⟨others, pass, signed⟩ := pass_of_signed signed nodeEqual eachFold
    rw [List.reverse_cons] at level
    obtain ⟨gatheredFolds, gatheredEach⟩ := folds_gather symbol folds each
    exact ⟨others, foldItems_of_pass pass, inductionHypothesis distinct
      ⟨_, _, signed, gatheredFolds, gatheredEach⟩
      ((level_concat_iff (fun member => fresh (List.mem_reverse.mp member))).mp level)⟩

/-! ### The items of a group one by one -/

/-- What all passes make of one item of a group: they leave the operators in place. -/
inductive FoldsItem : Node → Node → Prop
  | operand {node tree : Node} : node.isSign = false → Folds foldOrder node tree →
      FoldsItem node tree
  | operator (symbol : String) : FoldsItem (.sign symbol) (.sign symbol)

/-- An operand folds into an operand. -/
theorem isSign_of_folds {symbols : List String} {node tree : Node}
    (operand : node.isSign = false) (folds : Folds symbols node tree) : tree.isSign = false := by
  induction symbols generalizing node with
  | nil => exact folds.1 ▸ operand
  | cons symbol symbols inductionHypothesis =>
    obtain ⟨folded, equal, folds⟩ := folds
    exact inductionHypothesis (isSign_of_fold equal).2 folds

/-- An operand comes from an operand. -/
theorem FoldsItem.folds {node tree : Node} (folds : FoldsItem node tree)
    (operand : tree.isSign = false) : node.isSign = false ∧ Folds foldOrder node tree := by
  cases folds with
  | operand nodeOperand folds => exact ⟨nodeOperand, folds⟩
  | operator symbol => cases operand

/-- An operand becomes what it folds into. -/
theorem FoldsItem.folds_of_operand {node tree : Node} (folds : FoldsItem node tree)
    (operand : node.isSign = false) : Folds foldOrder node tree := by
  cases folds with
  | operand _ folds => exact folds
  | operator symbol => cases operand

/-- An operator becomes itself. -/
theorem FoldsItem.sign_eq {node : Node} {symbol : String} (folds : FoldsItem (.sign symbol) node) :
    .sign symbol = node := by
  cases folds with
  | operand operand folds => cases operand
  | operator => rfl

/-- An operator comes from itself. -/
theorem FoldsItem.eq_sign {node : Node} {symbol : String} (folds : FoldsItem node (.sign symbol)) :
    node = .sign symbol := by
  cases folds with
  | operand operand folds => cases isSign_of_folds operand folds
  | operator => rfl

theorem foldsItem_joined {later rest : List (String × Node)} (operands : Operands later)
    (each : Each (Folds foldOrder) later rest) :
    Operands rest ∧ List.Forall₂ FoldsItem (joined later) (joined rest) := by
  induction each with
  | nil => exact ⟨.nil, .nil⟩
  | @cons symbol _ _ _ _ folds each inductionHypothesis =>
    obtain ⟨operand, operands⟩ := operands_cons.mp operands
    obtain ⟨restOperands, items⟩ := inductionHypothesis operands
    exact ⟨operands_cons.mpr ⟨isSign_of_folds operand folds, restOperands⟩,
      .cons (.operator symbol) (.cons (.operand operand folds) items)⟩

theorem each_of_foldsItem {nodes : List Node} {rest : List (String × Node)}
    (operands : Operands rest) (items : List.Forall₂ FoldsItem nodes (joined rest)) :
    ∃ later, nodes = joined later ∧ Operands later ∧ Each (Folds foldOrder) later rest := by
  induction rest generalizing nodes with
  | nil =>
    cases items
    exact ⟨[], rfl, .nil, .nil⟩
  | cons head rest inductionHypothesis =>
    obtain ⟨symbol, tree⟩ := head
    obtain ⟨operand, operands⟩ := operands_cons.mp operands
    rcases items with _ | ⟨signFolds, _ | ⟨nodeFolds, items⟩⟩
    obtain ⟨later, rfl, laterOperands, each⟩ := inductionHypothesis operands items
    obtain ⟨nodeOperand, folds⟩ := nodeFolds.folds operand
    obtain rfl := signFolds.eq_sign
    exact ⟨(symbol, _) :: later, rfl, operands_cons.mpr ⟨nodeOperand, laterOperands⟩,
      .cons folds each⟩

/-- Items resolve when, one by one, they fold into the items of an alternation. -/
theorem resolves_iff {nodes : List Node} {first : Node} {rest : List (String × Node)} :
    Resolves foldOrder nodes first rest ↔
      ∃ items, List.Forall₂ FoldsItem nodes items ∧ Signed items first rest := by
  constructor
  · rintro ⟨node, later, signed, folds, each⟩
    cases signed with
    | plain operand operands =>
      obtain ⟨restOperands, items⟩ := foldsItem_joined operands each
      exact ⟨_, .cons (.operand operand folds) items,
        .plain (isSign_of_folds operand folds) restOperands⟩
    | negated operand operands =>
      obtain rfl := (folds_number foldOrder "0" first).mp folds
      cases each with
      | cons folds each =>
        obtain ⟨restOperands, items⟩ := foldsItem_joined operands each
        exact ⟨_, .cons (.operator "-") (.cons (.operand operand folds) items),
          .negated (isSign_of_folds operand folds) restOperands⟩
  · rintro ⟨items, related, signed⟩
    cases signed with
    | plain operand operands =>
      rcases related with _ | ⟨nodeFolds, items⟩
      obtain ⟨later, rfl, laterOperands, each⟩ := each_of_foldsItem operands items
      obtain ⟨nodeOperand, folds⟩ := nodeFolds.folds operand
      exact ⟨_, later, .plain nodeOperand laterOperands, folds, each⟩
    | negated operand operands =>
      rcases related with _ | ⟨signFolds, _ | ⟨nodeFolds, items⟩⟩
      obtain ⟨later, rfl, laterOperands, each⟩ := each_of_foldsItem operands items
      obtain ⟨nodeOperand, folds⟩ := nodeFolds.folds operand
      obtain rfl := signFolds.eq_sign
      exact ⟨.number "0", ("-", _) :: later, .negated nodeOperand laterOperands,
        (folds_number foldOrder "0" _).mpr rfl, .cons folds each⟩

/-! ### The passes of a line -/

theorem gives_limitHeight (node : Node) : Gives (limitHeight node) node := by
  unfold limitHeight
  split
  · exact .tooDeep node
  · exact .ok node

theorem eq_of_limitHeight {node limited : Node} (equal : limitHeight node = .ok limited) :
    node = limited := by
  unfold limitHeight at equal
  split at equal
  · cases equal
  · cases equal; rfl

/-- The passes of a line with the height of the tree limited before each of them. -/
theorem folds_of_foldlM {symbols : List String} {node tree : Node}
    (equal : symbols.foldlM (fun tree symbol => do fold symbol (← limitHeight tree)) node =
      .ok tree) (checked : checkOperands tree = .ok ()) : Folds symbols node tree := by
  induction symbols generalizing node with
  | nil => cases equal; exact ⟨rfl, checked⟩
  | cons symbol symbols inductionHypothesis =>
    rw [List.foldlM_cons] at equal
    obtain ⟨folded, passed, equal⟩ := bind_eq_ok.mp equal
    obtain ⟨limited, limit, passed⟩ := bind_eq_ok.mp passed
    obtain rfl := eq_of_limitHeight limit
    exact ⟨folded, passed, inductionHypothesis equal⟩

theorem gives_foldlM {symbols : List String} {node tree : Node} (folds : Folds symbols node tree) :
    Gives (symbols.foldlM (fun tree symbol => do fold symbol (← limitHeight tree)) node) tree ∧
      checkOperands tree = .ok () := by
  induction symbols generalizing node with
  | nil => obtain ⟨rfl, checked⟩ := folds; exact ⟨.ok node, checked⟩
  | cons symbol symbols inductionHypothesis =>
    obtain ⟨folded, passed, folds⟩ := folds
    obtain ⟨gives, checked⟩ := inductionHypothesis folds
    rw [List.foldlM_cons]
    exact ⟨(((gives_limitHeight node).bind (.inl passed)).bind gives), checked⟩

/-- The tree of a line is what the passes make of the tree that its tokens are read into. -/
theorem folds_of_ofLine {vocabulary : Vocabulary} {tokens : List Token} (some : tokens ≠ [])
    {tree : Node} (equal : ofLine vocabulary tokens = .ok tree) :
    ∃ node, ofTokens vocabulary tokens = .ok node ∧ Folds foldOrder node tree := by
  rw [ofLine, if_neg (by simpa using some)] at equal
  obtain ⟨node, read, equal⟩ := bind_eq_ok.mp equal
  obtain ⟨folded, passed, equal⟩ := bind_eq_ok.mp equal
  obtain ⟨limited, limit, equal⟩ := bind_eq_ok.mp equal
  obtain ⟨⟨⟩, checked, equal⟩ := bind_eq_ok.mp equal
  cases equal
  obtain rfl := eq_of_limitHeight limit
  exact ⟨node, read, folds_of_foldlM passed checked⟩

/-- A tree that the passes end in is the tree of the line, as far as depth allows. -/
theorem gives_ofLine {vocabulary : Vocabulary} {tokens : List Token} (some : tokens ≠ [])
    {node tree : Node} (read : Gives (ofTokens vocabulary tokens) node)
    (folds : Folds foldOrder node tree) : Gives (ofLine vocabulary tokens) tree := by
  obtain ⟨passed, checked⟩ := gives_foldlM folds
  rw [ofLine, if_neg (by simpa using some)]
  refine read.bind (passed.bind ((gives_limitHeight tree).bind ?_))
  rw [checked]
  exact .ok tree

end UnitSheet.Node
