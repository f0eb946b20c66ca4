/-
This file says what one folding pass makes of the items of a group.

A pass folds one operator. Seen from its result, the items were an alternation if and only if
they are one afterwards, every operand has been folded, and the operator has gathered its
operands from the left (`signed_of_pass`, `pass_of_signed`). A minus that nothing stands before
keeps its place until its own pass, which gives it a zero.
-/

import UnitSheet.Proofs.Grammar
import UnitSheet.Proofs.Result

namespace UnitSheet.Node

open Grammar

attribute [local simp] fold foldItems

/-! ### One pass over the items of a group -/

/-- Folding leaves no operator where an operand was, since it refuses operators. -/
theorem isSign_of_fold {symbol : String} {node folded : Node}
    (equal : fold symbol node = .ok folded) : node.isSign = false ∧ folded.isSign = false := by
  unfold fold at equal
  split at equal
  · cases equal; exact ⟨rfl, rfl⟩
  · cases equal; exact ⟨rfl, rfl⟩
  · cases equal; exact ⟨rfl, rfl⟩
  · cases equal
  · cases equal
  · obtain ⟨_, _, result⟩ := bind_eq_ok.mp equal
    cases result
    exact ⟨rfl, rfl⟩
  · obtain ⟨_, _, equal⟩ := bind_eq_ok.mp equal
    obtain ⟨_, _, result⟩ := bind_eq_ok.mp equal
    cases result
    exact ⟨rfl, rfl⟩
  · obtain ⟨_, _, result⟩ := bind_eq_ok.mp equal
    cases result
    exact ⟨rfl, rfl⟩
  · cases equal

theorem exists_eq_sign {node : Node} (kind : node.isSign = true) :
    ∃ symbol, node = .sign symbol := by
  cases node <;> first | exact ⟨_, rfl⟩ | cases kind

/-- What one pass makes of the items of a group, given the item before them: the steps of
`foldItems` that do not fail. -/
inductive Pass (symbol : String) : Option Node → List Node → List Node → Prop
  | finish (before : Option Node) : Pass symbol before [] before.toList
  | operand {before : Option Node} {node folded : Node} {rest others : List Node} :
      fold symbol node = .ok folded → Pass symbol (some folded) rest others →
      Pass symbol before (node :: rest) (before.toList ++ others)
  | other {before : Option Node} {found : String} {rest others : List Node} :
      found ≠ symbol → Pass symbol (some (.sign found)) rest others →
      Pass symbol before (.sign found :: rest) (before.toList ++ others)
  | same {before : Option Node} {left right folded : Node} {rest others : List Node} :
      leftOperand symbol before = .ok left → fold symbol right = .ok folded →
      Pass symbol (some (.operation symbol [left, folded])) rest others →
      Pass symbol before (.sign symbol :: right :: rest) others

theorem foldItems_operand {symbol : String} {node : Node} (operand : node.isSign = false)
    (before : Option Node) (rest : List Node) :
    foldItems symbol before (node :: rest) = (do
      let folded ← fold symbol node
      return before.toList ++ (← foldItems symbol (some folded) rest)) := by
  cases node <;> first | rfl | cases operand

theorem foldItems_other {symbol found : String} (differs : found ≠ symbol)
    (before : Option Node) (rest : List Node) :
    foldItems symbol before (.sign found :: rest) = (do
      return before.toList ++ (← foldItems symbol (some (.sign found)) rest)) := by
  cases rest with
  | nil => exact if_neg differs
  | cons right rest => rw [foldItems, if_neg differs]

theorem foldItems_same (symbol : String) (before : Option Node) (right : Node)
    (rest : List Node) :
    foldItems symbol before (.sign symbol :: right :: rest) = (do
      let left ← leftOperand symbol before
      if right.isSign then .error .consecutiveSigns
      else do
        let folded ← fold symbol right
        foldItems symbol (some (.operation symbol [left, folded])) rest) := by
  rw [foldItems, if_pos rfl]

theorem foldItems_of_pass {symbol : String} {before : Option Node} {items others : List Node}
    (pass : Pass symbol before items others) : foldItems symbol before items = .ok others := by
  induction pass with
  | finish before => simp
  | operand equal pass inductionHypothesis =>
    rw [foldItems_operand (isSign_of_fold equal).1, equal]
    exact bind_eq_ok.mpr ⟨_, rfl, bind_eq_ok.mpr ⟨_, inductionHypothesis, rfl⟩⟩
  | other differs pass inductionHypothesis =>
    rw [foldItems_other differs]
    exact bind_eq_ok.mpr ⟨_, inductionHypothesis, rfl⟩
  | same leftEqual rightEqual pass inductionHypothesis =>
    rw [foldItems_same, leftEqual, rightEqual]
    exact (if_neg (by rw [(isSign_of_fold rightEqual).1]; exact Bool.false_ne_true)).trans
      inductionHypothesis

theorem pass_of_foldItems {symbol : String} (before : Option Node) (items others : List Node)
    (equal : foldItems symbol before items = .ok others) : Pass symbol before items others := by
  match items with
  | [] =>
    rw [foldItems] at equal
    cases equal
    exact .finish before
  | node :: rest =>
    cases kind : node.isSign with
    | false =>
      rw [foldItems_operand kind] at equal
      obtain ⟨folded, nodeEqual, equal⟩ := bind_eq_ok.mp equal
      obtain ⟨others, restEqual, equal⟩ := bind_eq_ok.mp equal
      cases equal
      exact .operand nodeEqual (pass_of_foldItems _ rest others restEqual)
    | true =>
      obtain ⟨found, rfl⟩ := exists_eq_sign kind
      by_cases same : found = symbol
      · subst same
        cases rest with
        | nil => rw [foldItems, if_pos rfl] at equal; cases equal
        | cons right rest =>
          rw [foldItems_same] at equal
          obtain ⟨left, leftEqual, equal⟩ := bind_eq_ok.mp equal
          split at equal
          · cases equal
          · obtain ⟨folded, rightEqual, equal⟩ := bind_eq_ok.mp equal
            exact .same leftEqual rightEqual (pass_of_foldItems _ rest others equal)
      · rw [foldItems_other same] at equal
        obtain ⟨others, restEqual, equal⟩ := bind_eq_ok.mp equal
        cases equal
        exact .other same (pass_of_foldItems _ rest others restEqual)
termination_by items.length

theorem foldItems_eq_ok_iff {symbol : String} {before : Option Node} {items others : List Node} :
    foldItems symbol before items = .ok others ↔ Pass symbol before items others :=
  ⟨pass_of_foldItems before items others, foldItems_of_pass⟩

/-! ### A pass gathers the operands of its operator -/

/-- The same operators before operands that are related one by one. -/
inductive Each (related : Node → Node → Prop) :
    List (String × Node) → List (String × Node) → Prop
  | nil : Each related [] []
  | cons {symbol : String} {node tree : Node} {rest others : List (String × Node)} :
      related node tree → Each related rest others →
      Each related ((symbol, node) :: rest) ((symbol, tree) :: others)

theorem leftOperand_some (symbol : String) {kept : Node} (operand : kept.isSign = false) :
    leftOperand symbol (some kept) = .ok kept := by
  cases kept <;> first | rfl | cases operand

theorem leftOperand_none {symbol : String} {left : Node}
    (equal : leftOperand symbol none = .ok left) : symbol = "-" ∧ left = .number "0" := by
  by_cases minus : symbol = "-"
  · rw [leftOperand, if_pos minus] at equal
    cases equal
    exact ⟨minus, rfl⟩
  · rw [leftOperand, if_neg minus] at equal
    cases equal

/-- A pass begins with what was kept back, or with an operation that has taken it. -/
theorem head_of_pass {symbol : String} {before : Option Node} {items others : List Node}
    (pass : Pass symbol before items others) {kept : Node} (equal : before = some kept) :
    ∃ head tail, others = head :: tail ∧ head.isSign = kept.isSign := by
  induction pass generalizing kept with
  | finish before => subst equal; exact ⟨kept, [], rfl, rfl⟩
  | operand _ _ _ => subst equal; exact ⟨kept, _, rfl, rfl⟩
  | other _ _ _ => subst equal; exact ⟨kept, _, rfl, rfl⟩
  | same leftEqual _ _ inductionHypothesis =>
    subst equal
    obtain ⟨head, tail, equal, kind⟩ := inductionHypothesis rfl
    refine ⟨head, tail, equal, kind.trans ?_⟩
    cases kept <;> first | rfl | cases leftEqual

/-- If a pass that has kept back an operand ends in an alternation, operands followed it one by
one; if it has kept back an operator, an alternation followed. Its operator has then gathered
its operands. -/
theorem gather_of_pass {symbol : String} {before : Option Node} {items others : List Node}
    (pass : Pass symbol before items others) {kept : Node} (equal : before = some kept) :
    (∀ first rest, kept.isSign = false → others = alternation first rest → Operands rest →
      ∃ later folded, items = joined later ∧ Operands later ∧
        Each (fun node tree => fold symbol node = .ok tree) later folded ∧
        gather symbol kept folded = (first, rest)) ∧
    (∀ found rest, kept = .sign found → others = joined rest → Operands rest →
      ∃ node later tree folded, items = alternation node later ∧ node.isSign = false ∧
        Operands later ∧ fold symbol node = .ok tree ∧
        Each (fun node tree => fold symbol node = .ok tree) later folded ∧
        rest = (found, (gather symbol tree folded).1) :: (gather symbol tree folded).2) := by
  -- One induction for both: behind an operand an operator is kept back, and behind that an operand.
  induction pass generalizing kept with
  | finish before =>
    subst equal
    refine ⟨fun first rest _ shape _ => ?_, fun found rest _ shape _ => ?_⟩
    · cases rest with
      | nil =>
        cases shape
        exact ⟨[], [], rfl, Operands.nil, .nil, rfl⟩
      | cons later rest => cases shape
    · rcases rest with _ | ⟨_, rest⟩ <;> cases shape
  | operand nodeEqual pass inductionHypothesis =>
    subst equal
    obtain ⟨head, tail, rfl, kind⟩ := head_of_pass pass rfl
    have headOperand := kind.trans (isSign_of_fold nodeEqual).2
    refine ⟨fun first rest _ shape _ => ?_, fun found rest kept shape operands => ?_⟩
    · rcases rest with _ | ⟨_, rest⟩ <;> cases shape
      cases headOperand
    · rcases rest with _ | ⟨⟨symbol, operand⟩, rest⟩
      · cases shape
      · rw [kept] at shape
        injection shape with signEqual tailEqual
        injection signEqual with symbolEqual
        obtain ⟨later, folded, rfl, laterOperands, each, gathered⟩ :=
          (inductionHypothesis rfl).1 operand rest (isSign_of_fold nodeEqual).2 tailEqual
            (operands_cons.mp operands).2
        exact ⟨_, later, _, folded, rfl, (isSign_of_fold nodeEqual).1, laterOperands, nodeEqual,
          each, by rw [gathered, symbolEqual]⟩
  | other differs pass inductionHypothesis =>
    subst equal
    obtain ⟨head, tail, rfl, kind⟩ := head_of_pass pass rfl
    refine ⟨fun first rest operand shape operands => ?_, fun found rest kept shape operands => ?_⟩
    · injection shape with firstEqual restEqual
      obtain ⟨node, later, tree, folded, rfl, nodeOperand, laterOperands, nodeEqual, each, rfl⟩ :=
        (inductionHypothesis rfl).2 _ rest rfl restEqual operands
      refine ⟨(_, node) :: later, (_, tree) :: folded, rfl, ?_, .cons nodeEqual each, ?_⟩
      · exact operands_cons.mpr ⟨nodeOperand, laterOperands⟩
      · rw [gather_other differs, ← firstEqual]
    · rcases rest with _ | ⟨⟨symbol, operand⟩, rest⟩
      · cases shape
      · injection shape with _ tailEqual
        injection tailEqual with headEqual _
        have headOperand := (operands_cons.mp operands).1
        rw [← headEqual, kind] at headOperand
        cases headOperand
  | same leftEqual rightEqual pass inductionHypothesis =>
    subst equal
    refine ⟨fun first rest operand shape operands => ?_, fun found rest kept shape operands => ?_⟩
    · cases (leftOperand_some _ operand).symm.trans leftEqual
      obtain ⟨later, folded, rfl, laterOperands, each, gathered⟩ :=
        (inductionHypothesis rfl).1 first rest rfl shape operands
      refine ⟨(symbol, _) :: later, (symbol, _) :: folded, rfl, ?_, .cons rightEqual each, ?_⟩
      · exact operands_cons.mpr ⟨(isSign_of_fold rightEqual).1, laterOperands⟩
      · rw [gather_same, gathered]
    · subst kept
      cases leftEqual

/-- A pass over operands that each follow an operator gathers those of its own. -/
theorem pass_joined {symbol : String} {kept : Node} (operand : kept.isSign = false)
    {rest folded : List (String × Node)}
    (each : Each (fun node tree => fold symbol node = .ok tree) rest folded) :
    Pass symbol (some kept) (joined rest)
      (alternation (gather symbol kept folded).1 (gather symbol kept folded).2) := by
  induction each generalizing kept with
  | nil => exact .finish (some kept)
  | @cons found node tree rest folded nodeEqual each inductionHypothesis =>
    by_cases same : found = symbol
    · subst same
      rw [gather_same]
      exact .same (leftOperand_some found operand) nodeEqual (inductionHypothesis rfl)
    · rw [gather_other same]
      show Pass symbol (some kept) _ ((some kept).toList ++ ((some (Node.sign found)).toList ++ _))
      exact .other same (.operand nodeEqual (inductionHypothesis (isSign_of_fold nodeEqual).2))

/-- The items that a pass makes into an alternation were one, and its operator has gathered the
operands, each of them folded. -/
theorem signed_of_pass {symbol : String} {items others : List Node}
    (pass : Pass symbol none items others) {first : Node} {rest : List (String × Node)}
    (signed : Signed others first rest) :
    ∃ node later tree folded, Signed items node later ∧ fold symbol node = .ok tree ∧
      Each (fun node tree => fold symbol node = .ok tree) later folded ∧
      gather symbol tree folded = (first, rest) := by
  cases pass with
  | finish => cases signed
  | operand nodeEqual pass =>
    rw [Option.toList_none, List.nil_append] at signed
    obtain ⟨head, tail, equal, kind⟩ := head_of_pass pass rfl
    have folded := (isSign_of_fold nodeEqual).2
    cases signed with
    | plain operand operands =>
      obtain ⟨later, others, rfl, laterOperands, each, gathered⟩ :=
        (gather_of_pass pass rfl).1 first rest folded rfl operands
      exact ⟨_, later, _, others, .plain (isSign_of_fold nodeEqual).1 laterOperands, nodeEqual,
        each, gathered⟩
    | negated =>
      injection equal with headEqual _
      rw [← headEqual, folded] at kind
      cases kind
  | other differs pass =>
    rw [Option.toList_none, List.nil_append] at signed
    obtain ⟨head, tail, equal, kind⟩ := head_of_pass pass rfl
    cases signed with
    | plain operand =>
      injection equal with headEqual _
      rw [← headEqual, operand] at kind
      cases kind
    | @negated next rest operand operands =>
      obtain ⟨node, later, tree, folded, rfl, nodeOperand, laterOperands, nodeEqual, each, shape⟩ :=
        (gather_of_pass pass rfl).2 _ (("-", next) :: rest) rfl rfl
          (operands_cons.mpr ⟨operand, operands⟩)
      injection shape with headEqual restEqual
      injection headEqual with found nextEqual
      subst found nextEqual restEqual
      exact ⟨.number "0", ("-", node) :: later, .number "0", ("-", tree) :: folded,
        .negated nodeOperand laterOperands, by simp, .cons nodeEqual each,
        gather_other differs ..⟩
  | same leftEqual rightEqual pass =>
    obtain ⟨head, tail, equal, kind⟩ := head_of_pass pass rfl
    obtain ⟨rfl, rfl⟩ := leftOperand_none leftEqual
    cases signed with
    | plain operand operands =>
      obtain ⟨later, others, rfl, laterOperands, each, gathered⟩ :=
        (gather_of_pass pass rfl).1 first rest rfl rfl operands
      exact ⟨.number "0", ("-", _) :: later, .number "0", ("-", _) :: others,
        .negated (isSign_of_fold rightEqual).1 laterOperands, by simp,
        .cons rightEqual each, by rw [gather_same, gathered]⟩
    | negated =>
      injection equal with headEqual _
      rw [← headEqual] at kind
      cases kind

/-- Gathered operands are operands. -/
theorem operands_gather (symbol : String) (tree : Node) (operand : tree.isSign = false)
    {later folded : List (String × Node)}
    (each : Each (fun node tree => fold symbol node = .ok tree) later folded) :
    (gather symbol tree folded).1.isSign = false ∧ Operands (gather symbol tree folded).2 := by
  induction each generalizing tree with
  | nil => exact ⟨operand, Operands.nil⟩
  | @cons found _ _ _ _ nodeEqual each inductionHypothesis =>
    by_cases same : found = symbol
    · subst same
      rw [gather_same]
      exact inductionHypothesis _ rfl
    · rw [gather_other same]
      obtain ⟨nextOperand, others⟩ := inductionHypothesis _ (isSign_of_fold nodeEqual).2
      exact ⟨operand, operands_cons.mpr ⟨nextOperand, others⟩⟩

/-- A pass keeps an alternation one, and its operator gathers the folded operands. -/
theorem pass_of_signed {symbol : String} {items : List Node} {node tree : Node}
    {later folded : List (String × Node)} (signed : Signed items node later)
    (nodeEqual : fold symbol node = .ok tree)
    (each : Each (fun node tree => fold symbol node = .ok tree) later folded) :
    ∃ others, Pass symbol none items others ∧
      Signed others (gather symbol tree folded).1 (gather symbol tree folded).2 := by
  cases signed with
  | plain =>
    have kinds := operands_gather symbol _ (isSign_of_fold nodeEqual).2 each
    exact ⟨_, .operand nodeEqual (pass_joined (isSign_of_fold nodeEqual).2 each),
      .plain kinds.1 kinds.2⟩
  | negated =>
    rw [fold] at nodeEqual
    cases nodeEqual
    cases each with
    | @cons _ _ next _ _ firstEqual each =>
      have operand := (isSign_of_fold firstEqual).2
      by_cases minus : "-" = symbol
      · subst minus
        rw [gather_same]
        have kinds := operands_gather "-" (.operation "-" [.number "0", next]) rfl each
        exact ⟨_, .same rfl firstEqual (pass_joined rfl each), .plain kinds.1 kinds.2⟩
      · rw [gather_other minus]
        have kinds := operands_gather symbol next operand each
        exact ⟨_, .other minus (.operand firstEqual (pass_joined operand each)),
          .negated kinds.1 kinds.2⟩

/-- A pass leaves no sign of its own operator, and brings none. -/
theorem sign_mem_of_pass {symbol found : String} {before : Option Node} {items others : List Node}
    (pass : Pass symbol before items others) (member : .sign found ∈ others) :
    .sign found ∈ before.toList ∨ (found ≠ symbol ∧ .sign found ∈ items) := by
  induction pass with
  | finish before => exact .inl member
  | operand nodeEqual pass inductionHypothesis =>
    rcases List.mem_append.mp member with kept | member
    · exact .inl kept
    · rcases inductionHypothesis member with folded | ⟨differs, member⟩
      · obtain rfl := List.mem_singleton.mp folded
        cases (isSign_of_fold nodeEqual).2
      · exact .inr ⟨differs, List.mem_cons_of_mem _ member⟩
  | other differs pass inductionHypothesis =>
    rcases List.mem_append.mp member with kept | member
    · exact .inl kept
    · rcases inductionHypothesis member with same | ⟨differs, member⟩
      · cases List.mem_singleton.mp same
        exact .inr ⟨differs, List.mem_cons_self⟩
      · exact .inr ⟨differs, List.mem_cons_of_mem _ member⟩
  | same leftEqual rightEqual pass inductionHypothesis =>
    rcases inductionHypothesis member with operation | ⟨differs, member⟩
    · cases List.mem_singleton.mp operation
    · exact .inr ⟨differs, List.mem_cons_of_mem _ (List.mem_cons_of_mem _ member)⟩

end UnitSheet.Node
