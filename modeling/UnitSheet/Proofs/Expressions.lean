/-
This file says what the trees of lines are made of.

An expression has at every node something that evaluation has a case for: a known constant, a
call of a known function with one argument, an operation of two operands, a group of one item,
or a name that may be used. The trees of the grammar are expressions: every name in one is among
the tokens of its line, and the unit of every group is one that a bracket can stand for
(`expression_of_group`).
-/

import UnitSheet.Proofs.Acceptance

namespace UnitSheet

/-- The units that a group can be given: none, or what the contents of a bracket stand for. -/
def Catalog.HasUnit (catalog : Catalog) (unit : CompoundUnit Float) : Prop :=
  unit = CompoundUnit.empty ∨ ∃ (contents : List Token) (atoms : List UnitAtom),
    contents.mapM (UnitAtom.ofToken catalog) = .ok atoms ∧ CompoundUnit.ofAtoms atoms = .ok unit

namespace Node

/-- A node stands anywhere in a tree. -/
inductive Within (inner : Node) : Node → Prop
  | here : Within inner inner
  | inside {child tree : Node} : child ∈ tree.children → Within inner child → Within inner tree

/-- A tree that can be evaluated, given the names that may stand for lines and the units that
groups may have. -/
inductive Expression (refers : String → Prop) (given : CompoundUnit Float → Prop) : Node → Prop
  | number (text : String) : Expression refers given (.number text)
  | reference {name : String} : refers name → Expression refers given (.reference name)
  | constant {name : String} : name ∈ Vocabulary.constants →
      Expression refers given (.constant name)
  | function {name : String} {argument : Node} : name ∈ Vocabulary.functions →
      Expression refers given argument → Expression refers given (.function name [argument])
  | operation {symbol : String} {left right : Node} : symbol ∈ foldOrder →
      Expression refers given left → Expression refers given right →
      Expression refers given (.operation symbol [left, right])
  | group {label : String} {item : Node} {unit : CompoundUnit Float} : given unit →
      Expression refers given item → Expression refers given (.group label [item] unit)

variable {refers : String → Prop} {given : CompoundUnit Float → Prop} {tree : Node}

theorem Expression.mono {others : String → Prop} (more : ∀ name, refers name → others name)
    (expression : tree.Expression refers given) : tree.Expression others given := by
  induction expression with
  | number text => exact .number text
  | reference known => exact .reference (more _ known)
  | constant known => exact .constant known
  | function known _ argument => exact .function known argument
  | operation known _ _ left right => exact .operation known left right
  | group known _ item => exact .group known item

/-- Every part of an expression is an expression. -/
theorem Expression.of_within {inner : Node} (expression : tree.Expression refers given)
    (within : Within inner tree) : inner.Expression refers given := by
  induction within with
  | here => exact expression
  | inside member _ inductionHypothesis =>
    refine inductionHypothesis ?_
    cases expression with
    | number | reference | constant => cases member
    | function _ argument =>
      rw [List.mem_singleton.mp member]
      exact argument
    | operation _ left right =>
      rcases List.mem_cons.mp member with rfl | member
      · exact left
      · rw [List.mem_singleton.mp member]
        exact right
    | group _ item =>
      rw [List.mem_singleton.mp member]
      exact item

/-- Every name in an expression may be used. -/
theorem Expression.refers_of_within {name : String} (expression : tree.Expression refers given)
    (within : Within (.reference name) tree) : refers name := by
  cases expression.of_within within with
  | reference known => exact known

/-- A blank line has no parts. -/
theorem eq_blank_of_within {inner : Node} (within : Within inner blank) : inner = blank := by
  cases within with
  | here => rfl
  | inside member _ => cases member

/-- There is no name in a blank line. -/
theorem not_within_blank (name : String) : ¬ Within (.reference name) blank := by
  intro within
  cases eq_blank_of_within within

/-! ### Parts that folding keeps -/

theorem within_iff {inner tree : Node} :
    Within inner tree ↔ inner = tree ∨ ∃ child ∈ tree.children, Within inner child := by
  constructor
  · intro within
    cases within with
    | here => exact .inl rfl
    | inside member within => exact .inr ⟨_, member, within⟩
  · rintro (rfl | ⟨_, member, within⟩)
    · exact .here
    · exact .inside member within

/-- A name or a group, which folding neither makes nor takes away. -/
def IsKept : Node → Prop
  | reference _ | group _ _ _ => True
  | _ => False

theorem isKept_reference (name : String) : (reference name).IsKept :=
  trivial

theorem isKept_group (label : String) (items : List Node) (unit : CompoundUnit Float) :
    (group label items unit).IsKept :=
  trivial

variable {inner : Node}

theorem within_function_iff (kept : inner.IsKept) {function : String} {argument : Node} :
    Within inner (.function function [argument]) ↔ Within inner argument := by
  have other : inner ≠ .function function [argument] := by
    rintro rfl
    exact kept
  rw [within_iff]
  simp [children, other]

theorem within_operation_iff (kept : inner.IsKept) {symbol : String} {left right : Node} :
    Within inner (.operation symbol [left, right]) ↔ Within inner left ∨ Within inner right := by
  have other : inner ≠ .operation symbol [left, right] := by
    rintro rfl
    exact kept
  rw [within_iff]
  simp [children, other]

theorem within_group_iff {name label : String} {item : Node} {unit : CompoundUnit Float} :
    Within (.reference name) (.group label [item] unit) ↔ Within (.reference name) item := by
  rw [within_iff]
  simp [children]

/-- A node without parts has only itself in it. -/
theorem within_iff_eq {tree : Node} (leaf : tree.children = []) :
    Within inner tree ↔ inner = tree := by
  rw [within_iff, leaf]
  simp

end Node

namespace Grammar

variable {inner : Node}

/-- Folding keeps names and groups. -/
theorem within_level_iff (kept : inner.IsKept) {symbols : List String} {first tree : Node}
    {rest : List (String × Node)} (level : Level symbols first rest tree) :
    Node.Within inner tree ↔
      Node.Within inner first ∨ ∃ later ∈ rest, Node.Within inner later.2 := by
  induction level with
  | operand node => simp
  | tighter _ inductionHypothesis => exact inductionHypothesis
  | operation _ _ left right =>
    rw [Node.within_operation_iff kept, left, right, or_assoc]
    simp only [List.mem_append, List.mem_cons, or_and_right, exists_or, exists_eq_left]

theorem not_within_sign (kept : inner.IsKept) (symbol : String) :
    ¬ Node.Within inner (.sign symbol) := by
  rw [Node.within_iff_eq rfl]
  rintro rfl
  exact kept

theorem within_joined_iff (kept : inner.IsKept) {rest : List (String × Node)} :
    (∃ item ∈ joined rest, Node.Within inner item) ↔
      ∃ later ∈ rest, Node.Within inner later.2 := by
  induction rest with
  | nil => simp [joined]
  | cons head rest inductionHypothesis =>
    obtain ⟨symbol, operand⟩ := head
    simp only [joined, List.exists_mem_cons_iff, inductionHypothesis, not_within_sign kept,
      false_or]

/-- The names and groups among the items of a group are those of its operands. -/
theorem within_signed_iff (kept : inner.IsKept) {items : List Node} {first : Node}
    {rest : List (String × Node)} (signed : Signed items first rest) :
    (∃ item ∈ items, Node.Within inner item) ↔
      Node.Within inner first ∨ ∃ later ∈ rest, Node.Within inner later.2 := by
  cases signed with
  | plain _ _ => rw [alternation, List.exists_mem_cons_iff, within_joined_iff kept]
  | negated _ _ =>
    have notZero : ¬ Node.Within inner (.number "0") := by
      rw [Node.within_iff_eq rfl]
      rintro rfl
      exact kept
    simp only [alternation, List.exists_mem_cons_iff, within_joined_iff kept, not_within_sign kept,
      notZero, false_or]

variable {vocabulary : Vocabulary} {label : String} {operands : List Node}
  {given : CompoundUnit Float}

mutual

/-- A group in an operand has tokens of its own among those of the operand. -/
theorem exists_group_of_operand {tokens : List Token} {tree : Node} :
    Operand vocabulary tokens tree → Node.Within (.group label operands given) tree →
      ∃ inner, inner <:+: tokens ∧ Group vocabulary inner (.group label operands given)
  | .number _, within => absurd ((Node.within_iff_eq rfl).mp within) nofun
  | .constant _, within => absurd ((Node.within_iff_eq rfl).mp within) nofun
  | .reference _, within => absurd ((Node.within_iff_eq rfl).mp within) nofun
  | .function _ argument, within => by
    obtain ⟨inner, among, group⟩ := exists_group_of_operand argument
      ((Node.within_function_iff (Node.isKept_group label operands given)).mp within)
    exact ⟨inner, among.trans (List.suffix_cons _ _).isInfix, group⟩
  | .parenthesis group, within => by
    obtain ⟨inner, among, group⟩ := exists_group_of_group group within
    refine ⟨inner, among.trans ?_, group⟩
    exact (List.prefix_append _ _).isInfix.trans (List.suffix_cons _ _).isInfix

theorem exists_group_of_sequence {tokens : List Token} {items : List Node}
    {unit : CompoundUnit Float} {item : Node} : Sequence vocabulary tokens items unit →
      item ∈ items → Node.Within (.group label operands given) item →
        ∃ inner, inner <:+: tokens ∧ Group vocabulary inner (.group label operands given)
  | .empty, member, _ => absurd member List.not_mem_nil
  | .operand sequence operand, member, within => by
    rcases List.mem_append.mp member with earlier | last
    · obtain ⟨inner, among, group⟩ := exists_group_of_sequence sequence earlier within
      exact ⟨inner, among.trans (List.prefix_append _ _).isInfix, group⟩
    · rw [List.mem_singleton.mp last] at within
      obtain ⟨inner, among, group⟩ := exists_group_of_operand operand within
      exact ⟨inner, among.trans (List.suffix_append _ _).isInfix, group⟩
  | .operator symbol sequence, member, within => by
    rcases List.mem_append.mp member with earlier | last
    · obtain ⟨inner, among, group⟩ := exists_group_of_sequence sequence earlier within
      exact ⟨inner, among.trans (List.prefix_append _ _).isInfix, group⟩
    · rw [List.mem_singleton.mp last] at within
      exact absurd within (not_within_sign (Node.isKept_group label operands given) symbol)
  | .bracket sequence _ _, member, within => by
    obtain ⟨inner, among, group⟩ := exists_group_of_sequence sequence member within
    exact ⟨inner, among.trans (List.prefix_append _ _).isInfix, group⟩

theorem exists_group_of_group {tokens : List Token} {tree : Node} :
    Group vocabulary tokens tree → Node.Within (.group label operands given) tree →
      ∃ inner, inner <:+: tokens ∧ Group vocabulary inner (.group label operands given)
  | .group sequence signed level, within => by
    have kept := Node.isKept_group label operands given
    rcases Node.within_iff.mp within with same | ⟨child, member, within⟩
    · rw [same]
      exact ⟨_, List.infix_rfl, .group sequence signed level⟩
    · rw [List.mem_singleton.mp member, within_level_iff kept level,
        ← within_signed_iff kept signed] at within
      obtain ⟨item, member, within⟩ := within
      exact exists_group_of_sequence sequence member within

end

end Grammar

/-! ### The trees of the grammar -/

/-- A name on a line that stands for another line. -/
def Vocabulary.Refers (vocabulary : Vocabulary) (tokens : List Token) (name : String) : Prop :=
  vocabulary.IsReference name ∧ ⟨.literal, name⟩ ∈ tokens

theorem Vocabulary.Refers.mono {vocabulary : Vocabulary} {tokens more : List Token}
    (subset : tokens ⊆ more) (name : String) (refers : vocabulary.Refers tokens name) :
    vocabulary.Refers more name :=
  ⟨refers.1, subset refers.2⟩

namespace Grammar

variable {refers : String → Prop} {given : CompoundUnit Float → Prop}

/-- Operations make expressions out of expressions. -/
theorem expression_of_level {symbols : List String} {first tree : Node}
    {rest : List (String × Node)} (level : Level symbols first rest tree)
    (known : ∀ symbol ∈ symbols, symbol ∈ Node.foldOrder) (atFirst : first.Expression refers given)
    (atRest : ∀ later ∈ rest, later.2.Expression refers given) : tree.Expression refers given := by
  induction level with
  | operand node => exact atFirst
  | tighter _ inductionHypothesis =>
    exact inductionHypothesis (fun symbol member => known symbol (List.mem_cons_of_mem _ member))
      atFirst atRest
  | operation _ _ left right =>
    refine .operation (known _ List.mem_cons_self) (left known atFirst fun later member => ?_) ?_
    · exact atRest later (List.mem_append_left _ member)
    · refine right (fun symbol member => known symbol (List.mem_cons_of_mem _ member)) ?_ ?_
      · exact atRest _ (List.mem_append_right _ List.mem_cons_self)
      · intro later member
        exact atRest later (List.mem_append_right _ (List.mem_cons_of_mem _ member))

/-- The items of a group: expressions, and operators that are not yet folded. -/
def Items (refers : String → Prop) (given : CompoundUnit Float → Prop) (items : List Node) :
    Prop :=
  ∀ item ∈ items, item.isSign = false → item.Expression refers given

theorem expression_of_joined {rest : List (String × Node)} (operands : Operands rest)
    (items : Items refers given (joined rest)) :
    ∀ later ∈ rest, later.2.Expression refers given := by
  induction rest with
  | nil => exact fun _ member => absurd member List.not_mem_nil
  | cons head rest inductionHypothesis =>
    obtain ⟨symbol, operand⟩ := head
    obtain ⟨isOperand, operands⟩ := operands_cons.mp operands
    intro later member
    rcases List.mem_cons.mp member with rfl | member
    · exact items _ (List.mem_cons_of_mem _ List.mem_cons_self) isOperand
    · refine inductionHypothesis operands (fun item inRest => items item ?_) later member
      exact List.mem_cons_of_mem _ (List.mem_cons_of_mem _ inRest)

theorem expression_of_alternation {first : Node} {rest : List (String × Node)}
    (isOperand : first.isSign = false) (operands : Operands rest)
    (items : Items refers given (alternation first rest)) :
    first.Expression refers given ∧ ∀ later ∈ rest, later.2.Expression refers given := by
  refine ⟨items first List.mem_cons_self isOperand, expression_of_joined operands ?_⟩
  exact fun item member => items item (List.mem_cons_of_mem _ member)

/-- The operands of a group are expressions, the zero before a minus among them. -/
theorem expression_of_signed {items : List Node} {first : Node} {rest : List (String × Node)}
    (signed : Signed items first rest) (each : Items refers given items) :
    first.Expression refers given ∧ ∀ later ∈ rest, later.2.Expression refers given := by
  cases signed with
  | plain isOperand operands => exact expression_of_alternation isOperand operands each
  | negated isOperand operands =>
    obtain ⟨atFirst, atRest⟩ := expression_of_alternation isOperand operands
      fun item member => each item (List.mem_cons_of_mem _ member)
    refine ⟨.number "0", fun later member => ?_⟩
    rcases List.mem_cons.mp member with rfl | member
    · exact atFirst
    · exact atRest later member

theorem Items.mono {others : String → Prop} {items : List Node}
    (more : ∀ name, refers name → others name) (each : Items refers given items) :
    Items others given items :=
  fun item member isOperand => (each item member isOperand).mono more

variable {vocabulary : Vocabulary}

mutual

theorem hasUnit_of_sequence {tokens : List Token} {items : List Node} {unit : CompoundUnit Float} :
    Sequence vocabulary tokens items unit → vocabulary.catalog.HasUnit unit
  | .empty => .inl rfl
  | .operand sequence _ => hasUnit_of_sequence sequence
  | .operator _ sequence => hasUnit_of_sequence sequence
  | .bracket _ contents unit => .inr ⟨_, _, contents, unit⟩

/-- An operand is an expression, and the names in it are on its line. -/
theorem expression_of_operand {tokens : List Token} {tree : Node} :
    Operand vocabulary tokens tree →
      tree.Expression (vocabulary.Refers tokens) vocabulary.catalog.HasUnit
  | .number text => .number text
  | .constant known => .constant known
  | .reference known => .reference ⟨known, List.mem_cons_self⟩
  | .function known argument =>
    .function known.2.2 ((expression_of_operand argument).mono
      (Vocabulary.Refers.mono (List.subset_cons_self _ _)))
  | .parenthesis group =>
    (expression_of_group group).mono (Vocabulary.Refers.mono fun _ member =>
      List.mem_cons_of_mem _ (List.mem_append_left _ member))

theorem items_of_sequence {tokens : List Token} {items : List Node} {unit : CompoundUnit Float} :
    Sequence vocabulary tokens items unit →
      Items (vocabulary.Refers tokens) vocabulary.catalog.HasUnit items
  | .empty => fun _ member => absurd member List.not_mem_nil
  | .operand sequence operand => by
    intro item member isOperand
    rcases List.mem_append.mp member with member | member
    · exact (items_of_sequence sequence item member isOperand).mono
        (Vocabulary.Refers.mono (List.subset_append_left _ _))
    · rw [List.mem_singleton.mp member]
      exact (expression_of_operand operand).mono
        (Vocabulary.Refers.mono (List.subset_append_right _ _))
  | .operator symbol sequence => by
    intro item member isOperand
    rcases List.mem_append.mp member with member | member
    · exact (items_of_sequence sequence item member isOperand).mono
        (Vocabulary.Refers.mono (List.subset_append_left _ _))
    · rw [List.mem_singleton.mp member] at isOperand
      cases isOperand
  | .bracket sequence _ _ =>
    (items_of_sequence sequence).mono (Vocabulary.Refers.mono (List.subset_append_left _ _))

/-- The tree of a group is an expression, and the names in it are on its line. -/
theorem expression_of_group {tokens : List Token} {tree : Node} :
    Group vocabulary tokens tree →
      tree.Expression (vocabulary.Refers tokens) vocabulary.catalog.HasUnit
  | .group sequence signed level => by
    obtain ⟨atFirst, atRest⟩ := expression_of_signed signed (items_of_sequence sequence)
    refine .group (hasUnit_of_sequence sequence) ?_
    exact expression_of_level level (by decide) atFirst atRest

end

/-- The tree of a line with tokens is an expression, and the names in it are on the line. -/
theorem expression_of_ofLine {tokens : List Token} {tree : Node} (some : tokens ≠ [])
    (scanned : ∀ token ∈ tokens, ∃ line, token ∈ Token.scan line)
    (equal : Node.ofLine vocabulary tokens = .ok tree) :
    tree.Expression (vocabulary.Refers tokens) vocabulary.catalog.HasUnit :=
  expression_of_group (group_of_ofLine some (operators_of_scanned scanned) equal)

end Grammar

end UnitSheet
