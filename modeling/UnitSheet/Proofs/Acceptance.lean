/-
This file says which lines have a tree and what it is.

A line without tokens is a blank group, and any other line is accepted when its tokens are a
group of the grammar (`ofLine_eq_ok_iff_group`). Whether they are can be seen without any tree
for the line: it takes brackets and items, and items that alternate. Depth is left aside, since
it limits every line.
-/

import Mathlib
import UnitSheet.Proofs.Tokens
import UnitSheet.Proofs.Walk

namespace UnitSheet.Grammar

variable {vocabulary : Vocabulary} {tokens : List Token}

theorem ne_nil_of_operand {tree : Node} (operand : Operand vocabulary tokens tree) :
    tokens ≠ [] := by
  cases operand <;> exact List.cons_ne_nil _ _

/-- Where there are no tokens there are no items. -/
theorem eq_nil_of_sequence {tokens : List Token} {items : List Node} {unit : CompoundUnit Float} :
    Sequence vocabulary tokens items unit → tokens = [] → items = []
  | .empty, _ => rfl
  | .operand _ operand, empty =>
    absurd (List.append_eq_nil_iff.mp empty).2 (ne_nil_of_operand operand)
  | .operator _ _, empty => absurd (List.append_eq_nil_iff.mp empty).2 (List.cons_ne_nil _ _)
  | .bracket sequence _ _, empty =>
    eq_nil_of_sequence sequence (List.append_eq_nil_iff.mp empty).1

theorem ne_nil_of_signed {items : List Node} {unit : CompoundUnit Float} {first : Node}
    {rest : List (String × Node)} (sequence : Sequence vocabulary tokens items unit)
    (signed : Signed items first rest) : tokens ≠ [] := by
  intro empty
  have none := eq_nil_of_sequence sequence empty
  cases signed <;> cases none

theorem ne_nil_of_group {tree : Node} (group : Group vocabulary tokens tree) : tokens ≠ [] := by
  cases group with
  | group sequence signed _ => exact ne_nil_of_signed sequence signed

theorem isSign_of_operand {tree : Node} (operand : Operand vocabulary tokens tree) :
    tree.isSign = false := by
  cases operand with
  | parenthesis group => cases group; rfl
  | _ => rfl

/-- The operators among the items of a sequence are tokens of it. -/
theorem operator_mem_of_sequence {tokens : List Token} {items : List Node}
    {unit : CompoundUnit Float} {symbol : String} :
    Sequence vocabulary tokens items unit → .sign symbol ∈ items → ⟨.operator, symbol⟩ ∈ tokens
  | .operand sequence operand, member => by
    rcases List.mem_append.mp member with member | member
    · exact List.mem_append_left _ (operator_mem_of_sequence sequence member)
    · have kind := isSign_of_operand operand
      rw [← List.mem_singleton.mp member] at kind
      cases kind
  | .operator known sequence, member => by
    rcases List.mem_append.mp member with member | member
    · exact List.mem_append_left _ (operator_mem_of_sequence sequence member)
    · cases List.mem_singleton.mp member
      exact List.mem_append_right _ List.mem_cons_self
  | .bracket sequence _ _, member =>
    List.mem_append_left _ (operator_mem_of_sequence sequence member)

/-- The operators of an alternation are among the items that are read as it. -/
theorem sign_mem_of_signed {items : List Node} {first : Node} {rest : List (String × Node)}
    (signed : Signed items first rest) {later : String × Node} (member : later ∈ rest) :
    .sign later.1 ∈ items := by
  have inJoined : ∀ {rest : List (String × Node)}, later ∈ rest → .sign later.1 ∈ joined rest := by
    intro rest member
    induction rest with
    | nil => cases member
    | cons head rest inductionHypothesis =>
      rcases List.mem_cons.mp member with rfl | member
      · exact List.mem_cons_self
      · exact List.mem_cons_of_mem _ (List.mem_cons_of_mem _ (inductionHypothesis member))
  cases signed with
  | plain => exact List.mem_cons_of_mem _ (inJoined member)
  | negated =>
    rcases List.mem_cons.mp member with rfl | member
    · exact List.mem_cons_self
    · exact List.mem_cons_of_mem _ (List.mem_cons_of_mem _ (inJoined member))

/-- Items that alternate have a tree, since every operator that can be typed has a level. -/
theorem exists_group_of_signed {items : List Node} {unit : CompoundUnit Float} {first : Node}
    {rest : List (String × Node)}
    (operators : ∀ token ∈ tokens, token.kind = .operator → token.text ∈ Node.foldOrder)
    (sequence : Sequence vocabulary tokens items unit) (signed : Signed items first rest) :
    ∃ tree, Group vocabulary tokens tree := by
  have known : ∀ later ∈ rest, later.1 ∈ Node.foldOrder := by
    intro later member
    have token := operator_mem_of_sequence sequence (sign_mem_of_signed signed member)
    exact operators _ token rfl
  obtain ⟨tree, level⟩ := exists_level (by decide) known
  exact ⟨_, .group sequence signed level⟩

/-! ### Lines -/

/-- The tree of a line with tokens is that of a group of the grammar. -/
theorem group_of_ofLine (some : tokens ≠ [])
    (operators : ∀ token ∈ tokens, token.kind = .operator → token.text ∈ Node.foldOrder)
    {tree : Node} (equal : Node.ofLine vocabulary tokens = .ok tree) :
    Group vocabulary tokens tree := by
  obtain ⟨node, read, folds⟩ := Node.folds_of_ofLine some equal
  exact Reading.group_of_ofTokens operators read folds

/-- A group of the grammar is the tree of its line, as far as depth allows. -/
theorem gives_of_group {tree : Node} (group : Group vocabulary tokens tree) :
    Gives (Node.ofLine vocabulary tokens) tree := by
  obtain ⟨node, folds, read⟩ := Reading.exists_ofTokens group
  exact Node.gives_ofLine (ne_nil_of_group group) read folds

/-- The operators among tokens that lines can be cut into. -/
theorem operators_of_scanned (scanned : ∀ token ∈ tokens, ∃ line, token ∈ Token.scan line) :
    ∀ token ∈ tokens, token.kind = .operator → token.text ∈ Node.foldOrder := by
  intro token member operator
  obtain ⟨line, cut⟩ := scanned token member
  exact Token.operator_mem_foldOrder cut operator

/-- A line is accepted exactly when it has no tokens or its tokens are a group of the grammar, and
its tree is then that of the group. This can be told from the items of the line: they alternate.
Every other line is refused. -/
theorem ofLine_eq_ok_iff_group (vocabulary : Vocabulary) (tokens : List Token)
    (scanned : ∀ token ∈ tokens, ∃ line, token ∈ Token.scan line)
    (shallow : Node.ofLine vocabulary tokens ≠ .error .nestedTooDeeply) :
    (∀ tree, Node.ofLine vocabulary tokens = .ok tree ↔
      (tokens = [] ∧ tree = Node.blank) ∨ Group vocabulary tokens tree) ∧
    ((∃ tree, Node.ofLine vocabulary tokens = .ok tree) ↔
      tokens = [] ∨ ∃ items unit first rest,
        Sequence vocabulary tokens items unit ∧ Signed items first rest) ∧
    ((¬ ∃ tree, (tokens = [] ∧ tree = Node.blank) ∨ Group vocabulary tokens tree) →
      ∃ error, Node.ofLine vocabulary tokens = .error error) := by
  have operators := operators_of_scanned scanned
  have trees : ∀ tree, Node.ofLine vocabulary tokens = .ok tree ↔
      (tokens = [] ∧ tree = Node.blank) ∨ Group vocabulary tokens tree := by
    intro tree
    by_cases empty : tokens = []
    · subst empty
      constructor
      · intro equal
        cases equal
        exact .inl ⟨rfl, rfl⟩
      · rintro (⟨_, rfl⟩ | group)
        · rfl
        · exact absurd rfl (ne_nil_of_group group)
    · constructor
      · exact fun equal => .inr (group_of_ofLine empty operators equal)
      · rintro (⟨none, _⟩ | group)
        · exact absurd none empty
        · exact (gives_of_group group).eq_ok shallow
  refine ⟨trees, ⟨?_, ?_⟩, fun outside => ?_⟩
  · rintro ⟨tree, equal⟩
    rcases (trees tree).mp equal with ⟨empty, _⟩ | ⟨sequence, signed, _⟩
    · exact .inl empty
    · exact .inr ⟨_, _, _, _, sequence, signed⟩
  · rintro (empty | ⟨items, unit, first, rest, sequence, signed⟩)
    · exact ⟨Node.blank, (trees _).mpr (.inl ⟨empty, rfl⟩)⟩
    · obtain ⟨tree, group⟩ := exists_group_of_signed operators sequence signed
      exact ⟨tree, (trees tree).mpr (.inr group)⟩
  · cases result : Node.ofLine vocabulary tokens with
    | ok tree => exact absurd ⟨tree, (trees tree).mp result⟩ outside
    | error error => exact ⟨error, rfl⟩

/-- The minus of `-2^sqrt(x)` is taken from a zero, and the power binds tighter. -/
theorem group_of_negated_power :
    Group ⟨["x"], Catalog.builtin⟩ (Token.scan "-2^sqrt(x)".toList)
      (.group "" [.operation "-" [.number "0", .operation "^" [.number "2",
        .function "sqrt" [.group "" [.reference "x"] CompoundUnit.empty]]]]
        CompoundUnit.empty) := by
  have cut : Token.scan "-2^sqrt(x)".toList =
      [⟨.operator, "-"⟩, ⟨.number, "2"⟩, ⟨.operator, "^"⟩, ⟨.literal, "sqrt"⟩, ⟨.paren, "("⟩,
        ⟨.literal, "x"⟩, ⟨.paren, ")"⟩] := by
    cbv
  have scanned : ∀ token ∈ Token.scan "-2^sqrt(x)".toList, ∃ line, token ∈ Token.scan line :=
    fun token member => ⟨_, member⟩
  rw [cut] at scanned ⊢
  have characterized :=
    ofLine_eq_ok_iff_group ⟨["x"], Catalog.builtin⟩ _ scanned (fun tooDeep => by cases tooDeep)
  rcases (characterized.1 _).mp rfl with ⟨empty, _⟩ | group
  · cases empty
  · exact group

end UnitSheet.Grammar
