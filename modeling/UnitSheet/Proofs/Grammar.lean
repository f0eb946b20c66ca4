/-
This file gives the grammar of lines.

The grammar is stated on its own: it knows nothing of open groups, of passes or of the order
in which errors are met. A group is a sequence of unit brackets and items. Without the
brackets the items are operands with single operators between them, perhaps after a leading
minus, and `Level` reads them as five levels of left-associative operators. The rest of the
file is about levels: taking the tightest level away from the grammar is the same as gathering
the operands that its operator joins (`level_concat_iff`), and every alternation has a tree
(`exists_level`).
-/

import UnitSheet.Expression.Line

namespace UnitSheet

namespace Vocabulary

/-- A name that stands for a line: constants come first. -/
def IsReference (vocabulary : Vocabulary) (name : String) : Prop :=
  name ∉ constants ∧ name ∈ vocabulary.declared

/-- A name that stands for a function: constants and declared names come first. -/
def IsFunction (vocabulary : Vocabulary) (name : String) : Prop :=
  name ∉ constants ∧ name ∉ vocabulary.declared ∧ name ∈ functions

end Vocabulary

namespace Grammar

/-! ### The grammar -/

/-- The operators with the loosest first. -/
def levels : List String :=
  ["+", "-", "/", "*", "^"]

/-- Operands, each after the operator that joins it to what stands before. -/
def joined : List (String × Node) → List Node
  | [] => []
  | (symbol, operand) :: rest => .sign symbol :: operand :: joined rest

/-- The items of a group in which single operators stand between operands. -/
def alternation (first : Node) (rest : List (String × Node)) : List Node :=
  first :: joined rest

/-- Operands that stand after operators, none of them an operator itself. -/
def Operands (rest : List (String × Node)) : Prop :=
  ∀ later ∈ rest, later.2.isSign = false

/-- The items of a group and the alternation that they are read as. A leading minus takes a zero
for its first operand. -/
inductive Signed : List Node → Node → List (String × Node) → Prop
  | plain {first : Node} {rest : List (String × Node)} : first.isSign = false → Operands rest →
      Signed (alternation first rest) first rest
  | negated {first : Node} {rest : List (String × Node)} : first.isSign = false → Operands rest →
      Signed (.sign "-" :: alternation first rest) (.number "0") (("-", first) :: rest)

/-- The tree of an alternation read with operators given from the loosest to the tightest. At
each level the operator groups to the left: its last operand is read with the tighter ones. -/
inductive Level : List String → Node → List (String × Node) → Node → Prop
  | operand (node : Node) : Level [] node [] node
  | tighter {symbol : String} {tighter : List String} {first : Node}
      {rest : List (String × Node)} {tree : Node} :
      Level tighter first rest tree → Level (symbol :: tighter) first rest tree
  | operation {symbol : String} {tighter : List String} {first next : Node}
      {before after : List (String × Node)} {left right : Node} :
      Level (symbol :: tighter) first before left → Level tighter next after right →
      Level (symbol :: tighter) first (before ++ (symbol, next) :: after)
        (.operation symbol [left, right])

mutual

/-- The tokens of one operand and its tree. -/
inductive Operand (vocabulary : Vocabulary) : List Token → Node → Prop
  | number (text : String) : Operand vocabulary [⟨.number, text⟩] (.number text)
  | constant {name : String} : name ∈ Vocabulary.constants →
      Operand vocabulary [⟨.literal, name⟩] (.constant name)
  | reference {name : String} : vocabulary.IsReference name →
      Operand vocabulary [⟨.literal, name⟩] (.reference name)
  | function {name : String} {tokens : List Token} {argument : Node} :
      vocabulary.IsFunction name → Operand vocabulary tokens argument →
      Operand vocabulary (⟨.literal, name⟩ :: tokens) (.function name [argument])
  | parenthesis {tokens : List Token} {group : Node} : Group vocabulary tokens group →
      Operand vocabulary (⟨.paren, "("⟩ :: (tokens ++ [⟨.paren, ")"⟩])) group

/-- The tokens of brackets and items in any order: the items without the brackets, and the unit
of the last bracket. -/
inductive Sequence (vocabulary : Vocabulary) :
    List Token → List Node → CompoundUnit Float → Prop
  | empty : Sequence vocabulary [] [] CompoundUnit.empty
  | operand {tokens more : List Token} {items : List Node} {unit : CompoundUnit Float}
      {node : Node} : Sequence vocabulary tokens items unit → Operand vocabulary more node →
      Sequence vocabulary (tokens ++ more) (items ++ [node]) unit
  | operator {tokens : List Token} {items : List Node} {unit : CompoundUnit Float}
      (symbol : String) : Sequence vocabulary tokens items unit →
      Sequence vocabulary (tokens ++ [⟨.operator, symbol⟩]) (items ++ [.sign symbol]) unit
  | bracket {tokens contents : List Token} {items : List Node}
      {earlier unit : CompoundUnit Float} {atoms : List UnitAtom} :
      Sequence vocabulary tokens items earlier →
      contents.mapM (UnitAtom.ofToken vocabulary.catalog) = .ok atoms →
      CompoundUnit.ofAtoms atoms = .ok unit →
      Sequence vocabulary (tokens ++ ⟨.bracket, "["⟩ :: (contents ++ [⟨.bracket, "]"⟩])) items
        unit

/-- The tokens of a group and its tree. -/
inductive Group (vocabulary : Vocabulary) : List Token → Node → Prop
  | group {tokens : List Token} {items : List Node} {unit : CompoundUnit Float}
      {first tree : Node} {rest : List (String × Node)} :
      Sequence vocabulary tokens items unit → Signed items first rest →
      Level levels first rest tree → Group vocabulary tokens (.group "" [tree] unit)

end

theorem Operands.nil : Operands [] :=
  fun _ member => absurd member List.not_mem_nil

theorem operands_cons {symbol : String} {node : Node} {rest : List (String × Node)} :
    Operands ((symbol, node) :: rest) ↔ node.isSign = false ∧ Operands rest :=
  List.forall_mem_cons

theorem joined_inj {rest others : List (String × Node)} :
    joined rest = joined others ↔ rest = others := by
  refine ⟨fun same => ?_, congrArg joined⟩
  induction rest generalizing others with
  | nil =>
    cases others with
    | nil => rfl
    | cons => cases same
  | cons head rest inductionHypothesis =>
    cases others with
    | nil => cases same
    | cons other others =>
      obtain ⟨sameSign, sameTail⟩ := List.cons.inj same
      obtain ⟨sameOperand, sameRest⟩ := List.cons.inj sameTail
      rw [inductionHypothesis sameRest]
      exact congrArg (· :: others) (Prod.ext (Node.sign.inj sameSign) sameOperand)

/-- Items are read as one alternation only. -/
theorem Signed.unique {items : List Node} {first other : Node} {rest others : List (String × Node)}
    (left : Signed items first rest) (right : Signed items other others) :
    first = other ∧ rest = others := by
  generalize same : items = written at right
  cases left with
  | plain operand =>
    cases right with
    | plain =>
      obtain ⟨rfl, sameRest⟩ := List.cons.inj same
      exact ⟨rfl, joined_inj.mp sameRest⟩
    | negated =>
      rw [(List.cons.inj same).1] at operand
      cases operand
  | negated =>
    cases right with
    | plain operand =>
      rw [← (List.cons.inj same).1] at operand
      cases operand
    | negated =>
      obtain ⟨rfl, sameRest⟩ := List.cons.inj (List.cons.inj same).2
      exact ⟨rfl, congrArg _ (joined_inj.mp sameRest)⟩

/-! ### Gathering the operands of one operator -/

/-- An alternation in which the operands joined by one operator are gathered, from the left, into
one operand. -/
def gather (symbol : String) (first : Node) : List (String × Node) → Node × List (String × Node)
  | [] => (first, [])
  | (found, next) :: rest =>
    if found = symbol then gather symbol (.operation symbol [first, next]) rest
    else (first, (found, (gather symbol next rest).1) :: (gather symbol next rest).2)

theorem gather_same (symbol : String) (first next : Node) (rest : List (String × Node)) :
    gather symbol first ((symbol, next) :: rest) =
      gather symbol (.operation symbol [first, next]) rest := by
  rw [gather, if_pos rfl]

theorem gather_other {symbol found : String} (differs : found ≠ symbol) (first next : Node)
    (rest : List (String × Node)) :
    gather symbol first ((found, next) :: rest) =
      (first, (found, (gather symbol next rest).1) :: (gather symbol next rest).2) := by
  rw [gather, if_neg differs]

/-- At another operator an alternation is gathered in two parts. -/
theorem gather_append {symbol found : String} (differs : found ≠ symbol) (first next : Node)
    (before after : List (String × Node)) :
    gather symbol first (before ++ (found, next) :: after) =
      ((gather symbol first before).1, (gather symbol first before).2 ++
        (found, (gather symbol next after).1) :: (gather symbol next after).2) := by
  induction before generalizing first with
  | nil => exact gather_other differs first next after
  | cons joined before inductionHypothesis =>
    obtain ⟨known, operand⟩ := joined
    rw [List.cons_append]
    by_cases same : known = symbol
    · subst same
      rw [gather_same, gather_same, inductionHypothesis]
    · rw [gather_other same, gather_other same, inductionHypothesis]
      rfl

/-- One more operand joined by the gathered operator becomes the last operand. -/
theorem gather_concat {symbol : String} (first next : Node) (before : List (String × Node))
    (gathered : (gather symbol first before).2 = []) :
    gather symbol first (before ++ [(symbol, next)]) =
      (.operation symbol [(gather symbol first before).1, next], []) := by
  induction before generalizing first with
  | nil => rw [List.nil_append, gather_same]; rfl
  | cons joined before inductionHypothesis =>
    obtain ⟨known, operand⟩ := joined
    by_cases same : known = symbol
    · subst same
      rw [gather_same] at gathered
      rw [List.cons_append, gather_same, gather_same, inductionHypothesis _ gathered]
    · rw [gather_other same] at gathered
      cases gathered

/-- Where another operator stands after gathering, it stood before. -/
theorem gather_eq_append {symbol found : String} {first operand : Node}
    {rest left right : List (String × Node)} (differs : found ≠ symbol)
    (gathered : (gather symbol first rest).2 = left ++ (found, operand) :: right) :
    ∃ before next after, rest = before ++ (found, next) :: after ∧
      gather symbol first before = ((gather symbol first rest).1, left) ∧
      gather symbol next after = (operand, right) := by
  induction rest generalizing first left with
  | nil => exact absurd gathered.symm (by simp [gather])
  | cons joined rest inductionHypothesis =>
    obtain ⟨known, head⟩ := joined
    by_cases same : known = symbol
    · subst same
      rw [gather_same] at gathered ⊢
      obtain ⟨before, next, after, rfl, atFirst, atNext⟩ := inductionHypothesis gathered
      exact ⟨(known, head) :: before, next, after, rfl, by rw [gather_same, atFirst], atNext⟩
    · rw [gather_other same] at gathered ⊢
      cases left with
      | nil =>
        injection gathered with headEqual tailEqual
        injection headEqual with foundEqual operandEqual
        subst foundEqual operandEqual tailEqual
        exact ⟨[], head, rest, rfl, rfl, rfl⟩
      | cons earlier left =>
        injection gathered with headEqual tailEqual
        obtain ⟨before, next, after, rfl, atFirst, atNext⟩ := inductionHypothesis tailEqual
        refine ⟨(known, head) :: before, next, after, rfl, ?_, atNext⟩
        rw [gather_other same, atFirst, ← headEqual]

/-- Gathering leaves no sign of its operator, and brings none. -/
theorem mem_gather {symbol : String} {first : Node} {rest : List (String × Node)}
    {joined : String × Node} (member : joined ∈ (gather symbol first rest).2) :
    joined.1 ≠ symbol ∧ joined.1 ∈ rest.map Prod.fst := by
  induction rest generalizing first with
  | nil => cases member
  | cons head rest inductionHypothesis =>
    obtain ⟨known, operand⟩ := head
    by_cases same : known = symbol
    · subst same
      rw [gather_same] at member
      exact ⟨(inductionHypothesis member).1, List.mem_cons_of_mem _ (inductionHypothesis member).2⟩
    · rw [gather_other same] at member
      rcases List.mem_cons.mp member with rfl | member
      · exact ⟨same, List.mem_cons_self⟩
      · exact ⟨(inductionHypothesis member).1,
          List.mem_cons_of_mem _ (inductionHypothesis member).2⟩

/-! ### Levels -/

/-- No operator joins operands when no level is left. -/
theorem level_nil_iff {first tree : Node} {rest : List (String × Node)} :
    Level [] first rest tree ↔ rest = [] ∧ first = tree := by
  constructor
  · intro level
    cases level
    exact ⟨rfl, rfl⟩
  · rintro ⟨rfl, rfl⟩
    exact .operand first

/-- The operators of an alternation are those of its levels. -/
theorem mem_of_level {symbols : List String} {first tree : Node} {rest : List (String × Node)}
    (level : Level symbols first rest tree) : ∀ later ∈ rest, later.1 ∈ symbols := by
  induction level with
  | operand => exact fun _ member => absurd member List.not_mem_nil
  | tighter _ inductionHypothesis =>
    exact fun later member => List.mem_cons_of_mem _ (inductionHypothesis later member)
  | operation _ _ left right =>
    intro later member
    rcases List.mem_append.mp member with member | member
    · exact left later member
    · rcases List.mem_cons.mp member with rfl | member
      · exact List.mem_cons_self
      · exact List.mem_cons_of_mem _ (right later member)

/-- An alternation that the tightest operator gathers into one operand is read as that operand. -/
theorem gather_of_level_single {symbol : String} {first tree : Node}
    {rest : List (String × Node)} (level : Level [symbol] first rest tree) :
    gather symbol first rest = (tree, []) := by
  generalize single : [symbol] = symbols at level
  induction level with
  | operand => cases single
  | tighter level =>
    injection single with _ none
    subst none
    obtain ⟨rfl, rfl⟩ := level_nil_iff.mp level
    rfl
  | operation left right leftHypothesis =>
    injection single with same none
    subst same none
    obtain ⟨rfl, rfl⟩ := level_nil_iff.mp right
    have gathered := leftHypothesis rfl
    rw [gather_concat _ _ _ (by rw [gathered]), gathered]

/-- Levels are read after the tightest operator has gathered its operands. -/
theorem level_gather {symbols : List String} {symbol : String} {first tree : Node}
    {rest : List (String × Node)} (distinct : symbol ∉ symbols)
    (level : Level (symbols ++ [symbol]) first rest tree) :
    Level symbols (gather symbol first rest).1 (gather symbol first rest).2 tree := by
  generalize whole : symbols ++ [symbol] = all at level
  induction level generalizing symbols with
  | operand => exact absurd whole (by simp)
  | tighter level inductionHypothesis =>
    cases symbols with
    | nil =>
      injection whole with same none
      subst same none
      obtain ⟨rfl, rfl⟩ := level_nil_iff.mp level
      exact .operand _
    | cons loosest symbols =>
      injection whole with same rest
      subst same
      exact .tighter (inductionHypothesis (fun member => distinct (List.mem_cons_of_mem _ member))
        rest)
  | operation left right leftHypothesis rightHypothesis =>
    cases symbols with
    | nil =>
      injection whole with same none
      subst same none
      rw [gather_of_level_single (.operation left right)]
      exact .operand _
    | cons loosest symbols =>
      have atLeft := leftHypothesis distinct whole
      injection whole with same rest
      subst same
      have atRight := rightHypothesis (fun member => distinct (List.mem_cons_of_mem _ member)) rest
      rw [gather_append (List.ne_of_not_mem_cons distinct).symm]
      exact .operation atLeft atRight

/-- A first operand that is itself joined by the tightest operator is read along with the rest. -/
theorem level_single_cons {symbol : String} {first next tree : Node}
    {rest : List (String × Node)}
    (level : Level [symbol] (.operation symbol [first, next]) rest tree) :
    Level [symbol] first ((symbol, next) :: rest) tree := by
  generalize single : [symbol] = symbols at level
  generalize joined : Node.operation symbol [first, next] = start at level
  induction level with
  | operand => cases single
  | tighter level =>
    injection single with same none
    subst same none joined
    obtain ⟨rfl, rfl⟩ := level_nil_iff.mp level
    show Level _ first ([] ++ (_, next) :: []) _
    exact .operation (.tighter (.operand first)) (.operand next)
  | operation left right leftHypothesis =>
    injection single with same none
    subst same none joined
    rw [← List.cons_append]
    exact .operation (leftHypothesis rfl rfl) right

/-- Operands that one operator gathers into one are read by the level of that operator. -/
theorem level_single_of_gather {symbol : String} {first : Node} {rest : List (String × Node)}
    (gathered : (gather symbol first rest).2 = []) :
    Level [symbol] first rest (gather symbol first rest).1 := by
  induction rest generalizing first with
  | nil => exact .tighter (.operand first)
  | cons joined rest inductionHypothesis =>
    obtain ⟨known, next⟩ := joined
    by_cases same : known = symbol
    · subst same
      rw [gather_same] at gathered ⊢
      exact level_single_cons (inductionHypothesis gathered)
    · rw [gather_other same] at gathered
      cases gathered

/-- What is read after the tightest operator has gathered its operands is read with one more
level. -/
theorem level_of_gather {symbols : List String} {symbol : String} {first tree : Node}
    {rest : List (String × Node)} (distinct : symbol ∉ symbols)
    (level : Level symbols (gather symbol first rest).1 (gather symbol first rest).2 tree) :
    Level (symbols ++ [symbol]) first rest tree := by
  generalize start : (gather symbol first rest).1 = operand at level
  generalize others : (gather symbol first rest).2 = joined at level
  induction level generalizing first rest with
  | operand => exact start ▸ level_single_of_gather others
  | tighter level inductionHypothesis =>
    exact .tighter (inductionHypothesis (fun member => distinct (List.mem_cons_of_mem _ member))
      start others)
  | operation left right leftHypothesis rightHypothesis =>
    obtain ⟨before, next, after, rfl, atFirst, atNext⟩ :=
      gather_eq_append (List.ne_of_not_mem_cons distinct).symm others
    refine .operation (leftHypothesis distinct ?_ ?_)
      (rightHypothesis (fun member => distinct (List.mem_cons_of_mem _ member)) ?_ ?_)
    · rw [atFirst, start]
    · rw [atFirst]
    · rw [atNext]
    · rw [atNext]

/-- The tightest level of the grammar is the gathering of its operands. -/
theorem level_concat_iff {symbols : List String} {symbol : String} {first tree : Node}
    {rest : List (String × Node)} (distinct : symbol ∉ symbols) :
    Level (symbols ++ [symbol]) first rest tree ↔
      Level symbols (gather symbol first rest).1 (gather symbol first rest).2 tree :=
  ⟨level_gather distinct, level_of_gather distinct⟩

/-- Every alternation of operators that have a level has a tree. The induction takes the levels
away from the tightest one on, so they are given in that order. -/
theorem exists_level {symbols : List String} (distinct : symbols.Nodup) {first : Node}
    {rest : List (String × Node)} (known : ∀ joined ∈ rest, joined.1 ∈ symbols) :
    ∃ tree, Level symbols.reverse first rest tree := by
  induction symbols generalizing first rest with
  | nil =>
    cases rest with
    | nil => exact ⟨first, .operand first⟩
    | cons joined rest => exact absurd (known joined List.mem_cons_self) (List.not_mem_nil)
  | cons symbol symbols inductionHypothesis =>
    obtain ⟨fresh, distinct⟩ := List.nodup_cons.mp distinct
    have gathered : ∀ joined ∈ (gather symbol first rest).2, joined.1 ∈ symbols := by
      intro joined member
      obtain ⟨other, old⟩ := mem_gather member
      obtain ⟨origin, originMember, equal⟩ := List.mem_map.mp old
      rcases List.mem_cons.mp (equal ▸ known origin originMember) with same | rest
      · exact absurd same other
      · exact rest
    obtain ⟨tree, level⟩ := inductionHypothesis distinct gathered
    rw [List.reverse_cons]
    exact ⟨tree, (level_concat_iff (fun member => fresh (List.mem_reverse.mp member))).mpr level⟩

end Grammar

end UnitSheet
