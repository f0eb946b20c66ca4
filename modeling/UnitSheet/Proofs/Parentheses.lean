/-
This file says that one more pair of parentheses around an operand changes no value.

What stands between the parentheses is a group of one item without a unit, which has the value of
its item. The tree around it is another one, though, and it is known only after all passes. So the
items that are read are compared by what they will fold into (`Node.FoldsAlike`): operators are the
same, and operands fold into trees of the same value. Calls and groups keep this. A step looks at no
item that has been read, so readings whose open groups hold such items stay alike with every token
(`Reading.Alike.step`), whatever groups and functions are open around the operand.
-/

import UnitSheet.Proofs.UnitText
import UnitSheet.Sheet.Evaluation

namespace UnitSheet

open Grammar

/-! ### Results that follow others -/

/-- Where the one computation has a result, the other has one that is related to it. -/
def Follows {ε α : Type} (related : α → α → Prop) (result other : Except ε α) : Prop :=
  ∀ value, result = .ok value → ∃ similar, other = .ok similar ∧ related value similar

namespace Follows

variable {ε α β : Type} {related : α → α → Prop} {result other : Except ε α}

theorem ok {value similar : α} (same : related value similar) :
    Follows related (.ok value : Except ε α) (.ok similar) := by
  rintro _ ⟨⟩
  exact ⟨similar, rfl, same⟩

theorem error (cause : ε) (other : Except ε α) : Follows related (.error cause) other :=
  nofun

theorem ite {condition : Prop} [Decidable condition] {first second : Except ε α}
    (yes : condition → Follows related result first)
    (no : ¬ condition → Follows related other second) :
    Follows related (if condition then result else other)
      (if condition then first else second) := by
  split
  · rename_i holds
    exact yes holds
  · rename_i fails
    exact no fails

theorem bind {next similarNext : α → Except ε β} {relatedNext : β → β → Prop}
    (first : Follows related result other) (second : ∀ value similar, related value similar →
      Follows relatedNext (next value) (similarNext similar)) :
    Follows relatedNext (result >>= next) (other >>= similarNext) := by
  intro last equal
  obtain ⟨value, known, equal⟩ := bind_eq_ok.mp equal
  obtain ⟨similar, otherKnown, same⟩ := first value known
  obtain ⟨otherLast, otherEqual, sameLast⟩ := second value similar same last equal
  exact ⟨otherLast, bind_eq_ok.mpr ⟨similar, otherKnown, otherEqual⟩, sameLast⟩

/-- A first step that both share. -/
theorem bindSame (action : Except ε α) {next similarNext : α → Except ε β}
    {relatedNext : β → β → Prop}
    (second : ∀ value, Follows relatedNext (next value) (similarNext value)) :
    Follows relatedNext (action >>= next) (action >>= similarNext) := by
  cases action with
  | ok value => exact second value
  | error cause => exact error cause _

end Follows

/-! ### Trees of the same value -/

namespace Node

/-- Two trees have the same value or fail for the same reason, whatever names stand for. -/
def SameValue (tree other : Node) : Prop :=
  ∀ meaning, other.evaluate meaning = tree.evaluate meaning

variable {tree other left right : Node}

theorem SameValue.refl (tree : Node) : SameValue tree tree :=
  fun _ => rfl

theorem SameValue.function (same : SameValue tree other) (name : String) :
    SameValue (.function name [tree]) (.function name [other]) := by
  intro meaning
  rw [evaluate, evaluate, same]

theorem SameValue.operation {otherLeft otherRight : Node} (atLeft : SameValue left otherLeft)
    (atRight : SameValue right otherRight) (symbol : String) :
    SameValue (.operation symbol [left, right]) (.operation symbol [otherLeft, otherRight]) := by
  intro meaning
  rw [evaluate, evaluate, atLeft, atRight]

theorem SameValue.group (same : SameValue tree other) (label : String)
    (unit : CompoundUnit Float) :
    SameValue (.group label [tree] unit) (.group label [other] unit) := by
  intro meaning
  rw [evaluate, evaluate, same]

/-- A group without a unit has the value of what stands in it. -/
theorem sameValue_enclosed (tree : Node) :
    SameValue tree (.group "" [tree] CompoundUnit.empty) := by
  intro meaning
  rw [evaluate]
  cases tree.evaluate meaning with
  | ok quantity =>
    show quantity.annotate CompoundUnit.empty = .ok quantity
    exact if_pos rfl
  | error cause => rfl

/-! ### Nodes that fold alike -/

/-- Two items of groups: the same operator, or operands of which the other folds when the one does,
and into a tree of the same value. -/
inductive FoldsAlike : Node → Node → Prop
  | sign (symbol : String) : FoldsAlike (.sign symbol) (.sign symbol)
  | operand {node other : Node} : node.isSign = false → other.isSign = false →
      (∀ tree, Folds foldOrder node tree →
        ∃ alike, Folds foldOrder other alike ∧ SameValue tree alike) → FoldsAlike node other

variable {node : Node}

theorem FoldsAlike.refl (node : Node) : FoldsAlike node node := by
  cases operand : node.isSign with
  | false => exact .operand operand operand fun tree folds => ⟨tree, folds, .refl tree⟩
  | true =>
    cases node <;> first | exact .sign _ | cases operand

theorem FoldsAlike.isSign (alike : FoldsAlike node other) : other.isSign = node.isSign := by
  cases alike with
  | sign symbol => rfl
  | operand operand otherOperand _ => rw [operand, otherOperand]

theorem not_folds_sign {symbols : List String} {symbol found : String} :
    ¬ Folds (symbol :: symbols) (.sign found) tree := by
  rintro ⟨_, equal, _⟩
  cases (isSign_of_fold equal).1

theorem FoldsAlike.folds (alike : FoldsAlike node other) (folds : Folds foldOrder node tree) :
    ∃ similar, Folds foldOrder other similar ∧ SameValue tree similar := by
  cases alike with
  | sign symbol => exact absurd folds not_folds_sign
  | operand _ _ folding => exact folding tree folds

/-- Calls of operands that fold alike fold alike, and a call of an operator never folds. -/
theorem FoldsAlike.function (alike : FoldsAlike node other) (name : String) :
    FoldsAlike (.function name [node]) (.function name [other]) := by
  refine .operand rfl rfl fun tree folds => ?_
  cases alike with
  | sign symbol => exact absurd folds not_folds_function_sign
  | operand operand otherOperand folding =>
    obtain ⟨argument, argumentFolds, rfl⟩ := (folds_function operand).mp folds
    obtain ⟨similar, similarFolds, same⟩ := folding argument argumentFolds
    exact ⟨_, (folds_function otherOperand).mpr ⟨similar, similarFolds, rfl⟩, same.function name⟩

/-! ### Groups of items that fold alike -/

theorem Each.exists_of_append {related : Node → Node → Prop} {symbol : String} {next : Node}
    {before after others : List (String × Node)}
    (each : Each related (before ++ (symbol, next) :: after) others) :
    ∃ otherBefore otherNext otherAfter, others = otherBefore ++ (symbol, otherNext) :: otherAfter ∧
      Each related before otherBefore ∧ related next otherNext ∧
      Each related after otherAfter := by
  induction before generalizing others with
  | nil =>
    cases each with
    | cons atNext each => exact ⟨[], _, _, rfl, .nil, atNext, each⟩
  | cons head before inductionHypothesis =>
    cases each with
    | cons atHead each =>
      obtain ⟨otherBefore, otherNext, otherAfter, rfl, atBefore, atNext, atAfter⟩ :=
        inductionHypothesis each
      exact ⟨_ :: otherBefore, otherNext, otherAfter, rfl, .cons atHead atBefore, atNext, atAfter⟩

/-- The tree of an alternation has the value of that of another one, operand by operand. -/
theorem exists_level_of_sameValue {symbols : List String} {first otherFirst : Node}
    {rest others : List (String × Node)} (level : Level symbols first rest tree)
    (same : SameValue first otherFirst) (each : Each SameValue rest others) :
    ∃ alike, Level symbols otherFirst others alike ∧ SameValue tree alike := by
  induction level generalizing otherFirst others with
  | operand node =>
    cases each
    exact ⟨otherFirst, .operand otherFirst, same⟩
  | tighter _ inductionHypothesis =>
    obtain ⟨alike, level, sameTree⟩ := inductionHypothesis same each
    exact ⟨alike, .tighter level, sameTree⟩
  | @operation symbol _ _ _ _ _ _ _ _ _ leftHypothesis rightHypothesis =>
    obtain ⟨before, next, after, rfl, atBefore, atNext, atAfter⟩ := each.exists_of_append
    obtain ⟨left, leftLevel, sameLeft⟩ := leftHypothesis same atBefore
    obtain ⟨right, rightLevel, sameRight⟩ := rightHypothesis atNext atAfter
    exact ⟨_, .operation leftLevel rightLevel, sameLeft.operation sameRight symbol⟩

theorem exists_joined_of_foldsAlike {rest : List (String × Node)} {others : List Node}
    (operands : Operands rest) (alike : List.Forall₂ FoldsAlike (joined rest) others) :
    ∃ more, others = joined more ∧ Operands more ∧ Each FoldsAlike rest more := by
  induction rest generalizing others with
  | nil =>
    cases alike
    exact ⟨[], rfl, .nil, .nil⟩
  | cons head rest inductionHypothesis =>
    obtain ⟨symbol, node⟩ := head
    obtain ⟨operand, operands⟩ := operands_cons.mp operands
    rcases alike with _ | ⟨_ | ⟨notSign⟩, _ | ⟨atNode, alike⟩⟩
    · obtain ⟨more, rfl, moreOperands, each⟩ := inductionHypothesis operands alike
      exact ⟨(symbol, _) :: more, rfl, operands_cons.mpr ⟨atNode.isSign ▸ operand, moreOperands⟩,
        .cons atNode each⟩
    · cases notSign

/-- Items that fold alike alternate alike. -/
theorem exists_signed_of_foldsAlike {items others : List Node} {first : Node}
    {rest : List (String × Node)} (signed : Signed items first rest)
    (alike : List.Forall₂ FoldsAlike items others) :
    ∃ start more, Signed others start more ∧ FoldsAlike first start ∧
      Each FoldsAlike rest more := by
  cases signed with
  | plain operand operands =>
    rcases alike with _ | ⟨atFirst, alike⟩
    obtain ⟨more, rfl, moreOperands, each⟩ := exists_joined_of_foldsAlike operands alike
    exact ⟨_, more, .plain (atFirst.isSign ▸ operand) moreOperands, atFirst, each⟩
  | negated operand operands =>
    rcases alike with _ | ⟨_ | ⟨notSign⟩, _ | ⟨atFirst, alike⟩⟩
    · obtain ⟨more, rfl, moreOperands, each⟩ := exists_joined_of_foldsAlike operands alike
      exact ⟨.number "0", ("-", _) :: more, .negated (atFirst.isSign ▸ operand) moreOperands,
        .refl _, .cons atFirst each⟩
    · cases notSign

theorem exists_each_of_foldsAlike {later laters rest : List (String × Node)}
    (alike : Each FoldsAlike later laters) (folds : Each (Folds foldOrder) later rest) :
    ∃ others, Each (Folds foldOrder) laters others ∧ Each SameValue rest others := by
  induction alike generalizing rest with
  | nil =>
    cases folds
    exact ⟨[], .nil, .nil⟩
  | cons atNode _ inductionHypothesis =>
    cases folds with
    | cons nodeFolds folds =>
      obtain ⟨others, othersFold, each⟩ := inductionHypothesis folds
      obtain ⟨similar, similarFolds, same⟩ := atNode.folds nodeFolds
      exact ⟨_, .cons similarFolds othersFold, .cons same each⟩

/-- Groups of items that fold alike fold alike. -/
theorem FoldsAlike.group {items others : List Node}
    (known : ∀ symbol, .sign symbol ∈ items → symbol ∈ foldOrder)
    (alike : List.Forall₂ FoldsAlike items others) (label : String) (unit : CompoundUnit Float) :
    FoldsAlike (.group label items unit) (.group label others unit) := by
  refine .operand rfl rfl fun tree folds => ?_
  obtain ⟨operand, itemsFold, rfl⟩ := folds_group.mp folds
  obtain ⟨first, rest, ⟨node, later, signed, nodeFolds, each⟩, level⟩ :=
    level_of_foldsItems (by decide) known itemsFold
  obtain ⟨start, more, otherSigned, atFirst, atRest⟩ := exists_signed_of_foldsAlike signed alike
  obtain ⟨similar, similarFolds, same⟩ := atFirst.folds nodeFolds
  obtain ⟨others, othersFold, sameRest⟩ := exists_each_of_foldsAlike atRest each
  obtain ⟨last, otherLevel, sameOperand⟩ := exists_level_of_sameValue level same sameRest
  exact ⟨_, folds_group.mpr ⟨last, foldsItems_of_level (by decide)
    ⟨start, more, otherSigned, similarFolds, othersFold⟩ otherLevel, rfl⟩,
    sameOperand.group label unit⟩

theorem level_alone (symbols : List String) (tree : Node) : Level symbols tree [] tree := by
  induction symbols with
  | nil => exact .operand tree
  | cons symbol symbols inductionHypothesis => exact .tighter inductionHypothesis

/-- An operand and the group of this operand alone fold alike. -/
theorem foldsAlike_enclosed (operand : node.isSign = false) :
    FoldsAlike node (.group "" [node] CompoundUnit.empty) := by
  refine .operand operand rfl fun tree folds => ⟨_, folds_group.mpr ⟨tree, ?_, rfl⟩, ?_⟩
  · exact foldsItems_of_level (by decide) ⟨node, [], .plain operand .nil, folds, .nil⟩
      (level_alone _ tree)
  · exact sameValue_enclosed tree

end Node

/-! ### Readings that are alike -/

open Node

/-- Open groups for which the same functions wait and which have the same unit, with items that
fold alike. -/
structure OpenGroup.Alike (group other : OpenGroup) : Prop where
  items : List.Forall₂ FoldsAlike group.items other.items
  unit : other.unit = group.unit
  waiting : other.waiting = group.waiting
  known : ∀ symbol, .sign symbol ∈ group.items → symbol ∈ foldOrder

/-- Readings that stand in the same groups and in the same bracket. -/
structure Reading.Alike (reading other : Reading) : Prop where
  innermost : reading.innermost.Alike other.innermost
  around : List.Forall₂ OpenGroup.Alike reading.around other.around
  bracket : other.bracket = reading.bracket

namespace OpenGroup

variable {group other : OpenGroup} {node otherNode : Node}

theorem alike_fresh : Alike fresh fresh where
  items := .nil
  unit := rfl
  waiting := rfl
  known _ member := absurd member List.not_mem_nil

theorem foldsAlike_call (waiting : List String) (alike : FoldsAlike node otherNode) :
    FoldsAlike (call waiting node) (call waiting otherNode) := by
  induction waiting generalizing node otherNode with
  | nil => exact alike
  | cons name waiting inductionHypothesis => exact inductionHypothesis (alike.function name)

theorem call_eq_sign {waiting : List String} {symbol : String}
    (equal : call waiting node = .sign symbol) : node = .sign symbol := by
  induction waiting generalizing node with
  | nil => exact equal
  | cons name waiting inductionHypothesis => cases inductionHypothesis equal

theorem Alike.add (alike : Alike group other) (nodes : FoldsAlike node otherNode)
    (known : ∀ symbol, node = .sign symbol → symbol ∈ foldOrder) :
    Alike (group.add node) (other.add otherNode) where
  items := by
    refine .cons ?_ alike.items
    rw [alike.waiting]
    exact foldsAlike_call group.waiting nodes
  unit := alike.unit
  waiting := rfl
  known symbol member := by
    rcases List.mem_cons.mp member with same | member
    · exact known symbol (call_eq_sign same.symm)
    · exact alike.known symbol member

theorem Alike.annotate (alike : Alike group other) (unit : CompoundUnit Float) :
    Follows Alike (group.annotate unit) (other.annotate unit) := by
  obtain ⟨items, given, waiting⟩ := group
  obtain ⟨otherItems, otherGiven, otherWaiting⟩ := other
  obtain rfl : otherWaiting = waiting := alike.waiting
  cases otherWaiting with
  | nil => exact .ok ⟨alike.items, rfl, rfl, alike.known⟩
  | cons name waiting => exact .error _ _

theorem Alike.await (alike : Alike group other) (name : String) :
    Alike { group with waiting := name :: group.waiting }
      { other with waiting := name :: other.waiting } where
  items := alike.items
  unit := alike.unit
  waiting := congrArg (name :: ·) alike.waiting
  known := alike.known

/-- Complete groups fold alike. -/
theorem Alike.close (alike : Alike group other) : FoldsAlike group.close other.close := by
  rw [OpenGroup.close, OpenGroup.close, alike.unit]
  refine .group (fun symbol member => ?_) (List.rel_reverse alike.items) "" group.unit
  exact alike.known symbol (List.mem_reverse.mp member)

end OpenGroup

namespace Reading

open OpenGroup

variable {vocabulary : Vocabulary} {reading other next : Reading} {token : Token}

theorem Alike.depth (alike : Alike reading other) : other.depth = reading.depth := by
  unfold Reading.depth
  generalize groups : reading.innermost :: reading.around = first
  generalize otherGroups : other.innermost :: other.around = second
  have each : List.Forall₂ OpenGroup.Alike first second := by
    subst groups otherGroups
    exact .cons alike.innermost alike.around
  clear groups otherGroups
  induction each with
  | nil => rfl
  | cons atGroup _ inductionHypothesis =>
    rw [List.foldr_cons, List.foldr_cons, inductionHypothesis, atGroup.waiting]

theorem Alike.deeper (alike : Alike reading other) :
    Follows Alike reading.deeper other.deeper := by
  rw [Reading.deeper, Reading.deeper, alike.depth]
  exact .ite (fun _ => .error _ _) fun _ => .ok alike

theorem Alike.add (alike : Alike reading other) {node otherNode : Node}
    (nodes : FoldsAlike node otherNode)
    (known : ∀ symbol, node = .sign symbol → symbol ∈ foldOrder) :
    Alike (reading.add node) (other.add otherNode) where
  innermost := alike.innermost.add nodes known
  around := alike.around
  bracket := alike.bracket

/-- One more item that is the same for both. -/
theorem Alike.addSame (alike : Alike reading other) (node : Node)
    (known : ∀ symbol, node = .sign symbol → symbol ∈ foldOrder) :
    Alike (reading.add node) (other.add node) :=
  alike.add (.refl node) known

theorem Alike.closeGroup (alike : Alike reading other) (token : Token) :
    Follows Alike (reading.closeGroup token) (other.closeGroup token) := by
  obtain ⟨⟨items, unit, waiting⟩, around, bracket⟩ := reading
  obtain ⟨⟨otherItems, otherUnit, otherWaiting⟩, otherAround, otherBracket⟩ := other
  obtain ⟨inner, outside, sameBracket⟩ := alike
  obtain rfl : otherWaiting = waiting := inner.waiting
  cases otherWaiting with
  | cons name waiting => exact .error _ _
  | nil =>
    cases outside with
    | nil => exact .error _ _
    | cons atOuter outside => exact .ok ⟨atOuter.add inner.close nofun, outside, sameBracket⟩

theorem Alike.readName (alike : Alike reading other) (name : String) :
    Follows Alike (reading.readName vocabulary name) (other.readName vocabulary name) := by
  refine .ite (fun _ => .ok (alike.addSame _ nofun)) fun _ => ?_
  refine .ite (fun _ => .ok (alike.addSame _ nofun)) fun _ => ?_
  refine .ite (fun _ => ?_) fun _ => .error _ _
  exact Alike.deeper ⟨alike.innermost.await name, alike.around, alike.bracket⟩

theorem Alike.readToken (alike : Alike reading other)
    (operator : token.kind = .operator → token.text ∈ foldOrder) :
    Follows Alike (reading.readToken vocabulary token) (other.readToken vocabulary token) := by
  obtain ⟨kind, text⟩ := token
  cases kind with
  | number => exact .ok (alike.addSame _ nofun)
  | operator =>
    refine .ok (alike.addSame _ fun symbol same => ?_)
    cases same
    exact operator rfl
  | literal => exact alike.readName text
  | paren =>
    refine .ite (fun _ => ?_) fun _ => .ite (fun _ => alike.closeGroup _) fun _ => .error _ _
    exact Alike.deeper ⟨alike_fresh, .cons alike.innermost alike.around, alike.bracket⟩
  | bracket =>
    exact .ite (fun _ => .ok ⟨alike.innermost, alike.around, rfl⟩) fun _ => .error _ _
  | definition | comment | whitespace | unknown => exact .error _ _

theorem Alike.readUnitToken (alike : Alike reading other) (atoms : List UnitAtom) :
    Follows Alike (reading.readUnitToken vocabulary atoms token)
      (other.readUnitToken vocabulary atoms token) := by
  refine .ite (fun _ => ?_) fun _ => ?_
  · refine .bindSame _ fun unit => (alike.innermost.annotate unit).bind fun group similar same => ?_
    exact .ok ⟨same, alike.around, rfl⟩
  · exact .bindSame _ fun atom => .ok ⟨alike.innermost, alike.around, rfl⟩

/-- Readings that are alike take the same tokens, and stay alike. -/
theorem Alike.step (alike : Alike reading other)
    (operator : token.kind = .operator → token.text ∈ foldOrder) :
    Follows Alike (reading.step vocabulary token) (other.step vocabulary token) := by
  rw [Reading.step, Reading.step, alike.bracket]
  cases reading.bracket with
  | none => exact alike.readToken operator
  | some atoms => exact alike.readUnitToken atoms

theorem Alike.foldlM (alike : Alike reading other) {tokens : List Token}
    (operators : ∀ token ∈ tokens, token.kind = .operator → token.text ∈ foldOrder) :
    Follows Alike (tokens.foldlM (Reading.step vocabulary) reading)
      (tokens.foldlM (Reading.step vocabulary) other) := by
  induction tokens generalizing reading other with
  | nil => exact .ok alike
  | cons token tokens inductionHypothesis =>
    obtain ⟨operator, operators⟩ := List.forall_mem_cons.mp operators
    rw [List.foldlM_cons, List.foldlM_cons]
    exact (alike.step operator).bind fun _ _ next => inductionHypothesis next operators

/-- The groups of lines that are read alike fold alike. -/
theorem Alike.finish (alike : Alike reading other) :
    Follows FoldsAlike reading.finish other.finish := by
  obtain ⟨⟨items, unit, waiting⟩, around, bracket⟩ := reading
  obtain ⟨⟨otherItems, otherUnit, otherWaiting⟩, otherAround, otherBracket⟩ := other
  obtain ⟨inner, outside, sameBracket⟩ := alike
  obtain rfl : otherWaiting = waiting := inner.waiting
  obtain rfl : otherBracket = bracket := sameBracket
  cases otherBracket with
  | some atoms => exact .error _ _
  | none =>
    cases otherWaiting with
    | cons name waiting => exact .error _ _
    | nil =>
      cases outside with
      | nil => exact .ok inner.close
      | cons => exact .error _ _

end Reading

/-! ### One more pair of parentheses -/

/-- Some tokens in parentheses. -/
def Token.enclose (tokens : List Token) : List Token :=
  ⟨.paren, "("⟩ :: (tokens ++ [⟨.paren, ")"⟩])

namespace Reading

variable {vocabulary : Vocabulary} {reading : Reading}

theorem alike_start : Alike start start where
  innermost := OpenGroup.alike_fresh
  around := .nil
  bracket := rfl

/-- An operand in parentheses is read as the group of this operand alone. -/
theorem gives_enclosed {tokens : List Token} {node : Node}
    (reads : ∀ reading : Reading, reading.bracket = none →
      Gives (tokens.foldlM (step vocabulary) reading) (reading.add node))
    (outside : reading.bracket = none) :
    Gives ((Token.enclose tokens).foldlM (step vocabulary) reading)
      (reading.add (.group "" [node] CompoundUnit.empty)) := by
  obtain ⟨innermost, around, bracket⟩ := reading
  obtain rfl : bracket = none := outside
  rw [Token.enclose, List.foldlM_cons]
  refine (gives_deeper ⟨OpenGroup.fresh, innermost :: around, none⟩).bind ?_
  rw [List.foldlM_append]
  exact (reads _ rfl).bind (.ok _)

/-- No bracket is open where a token that opens none is not unit text. -/
theorem bracket_eq_none_of_not_inUnit {before rest : List Token} {token : Token}
    (read : before.foldlM (step vocabulary) start = .ok reading)
    (outside : ¬ Token.InUnit (before ++ token :: rest) before.length) :
    reading.bracket = none := by
  have found : (before ++ token :: rest)[before.length]? = some token := by simp
  rw [Token.inUnit_iff found, List.take_left, Bool.or_eq_true, not_or] at outside
  have closed := isSome_bracket_foldlM read
  rw [show start.bracket.isSome = false from rfl, Bool.eq_false_iff.mpr outside.1] at closed
  exact Option.isSome_eq_false_iff.mp closed |> Option.isNone_iff_eq_none.mp

/-- Where a line has an operand outside of brackets, its reading adds one item, the same one that
the operand adds to every reading. -/
theorem exists_item_of_foldlM {before operand after : List Token} {node : Node} {last : Reading}
    (isOperand : Operand vocabulary operand node)
    (outside : ¬ Token.InUnit (before ++ (operand ++ after)) before.length)
    (read : (before ++ (operand ++ after)).foldlM (step vocabulary) start = .ok last) :
    ∃ reached item, item.isSign = false ∧ reached.bracket = none ∧
      (∀ reading : Reading, reading.bracket = none →
        Gives (operand.foldlM (step vocabulary) reading) (reading.add item)) ∧
      before.foldlM (step vocabulary) start = .ok reached ∧
      after.foldlM (step vocabulary) (reached.add item) = .ok last := by
  rw [List.foldlM_append] at read
  obtain ⟨reached, readBefore, read⟩ := bind_eq_ok.mp read
  rw [List.foldlM_append] at read
  obtain ⟨next, readOperand, readAfter⟩ := bind_eq_ok.mp read
  have notInside : reached.bracket = none := by
    obtain ⟨token, rest, first⟩ := List.exists_cons_of_ne_nil (ne_nil_of_operand isOperand)
    rw [first, List.cons_append] at outside
    exact bracket_eq_none_of_not_inUnit readBefore outside
  obtain ⟨item, itemOperand, _, reads⟩ := exists_operand isOperand
  refine ⟨reached, item, itemOperand, notInside, reads, readBefore, ?_⟩
  rcases reads reached notInside with same | tooDeep
  · cases readOperand.symm.trans same
    exact readAfter
  · cases readOperand.symm.trans tooDeep

/-- What can be read from the start of a line on is like itself. -/
theorem alike_of_foldlM {tokens : List Token}
    (operators : ∀ token ∈ tokens, token.kind = .operator → token.text ∈ foldOrder)
    (read : tokens.foldlM (step vocabulary) start = .ok reading) : Alike reading reading := by
  obtain ⟨similar, same, alike⟩ := alike_start.foldlM operators reading read
  cases read.symm.trans same
  exact alike

end Reading

namespace Grammar

variable {vocabulary : Vocabulary} {tokens before operand after : List Token} {node tree : Node}

/-- Where an operand of a line stands in parentheses, the line is read into a tree that folds
alike. -/
theorem ofLine_enclosed_operand
    (operators : ∀ token ∈ before ++ (operand ++ after), token.kind = .operator →
      token.text ∈ foldOrder)
    (isOperand : Operand vocabulary operand node)
    (outside : ¬ Token.InUnit (before ++ (operand ++ after)) before.length)
    (accepted : ofLine vocabulary (before ++ (operand ++ after)) = .ok tree) :
    ∃ similar, Gives (ofLine vocabulary (before ++ (Token.enclose operand ++ after))) similar ∧
      SameValue tree similar := by
  have some : before ++ (operand ++ after) ≠ [] := by simp [ne_nil_of_operand isOperand]
  obtain ⟨whole, read, folds⟩ := folds_of_ofLine some accepted
  obtain ⟨last, read, finished⟩ := bind_eq_ok.mp read
  obtain ⟨reached, item, itemOperand, notInside, reads, readBefore, readAfter⟩ :=
    Reading.exists_item_of_foldlM isOperand outside read
  obtain ⟨operatorsBefore, operators⟩ := List.forall_mem_append.mp operators
  obtain ⟨_, operatorsAfter⟩ := List.forall_mem_append.mp operators
  have changed : (reached.add item).Alike
      (reached.add (.group "" [item] CompoundUnit.empty)) := by
    refine (Reading.alike_of_foldlM operatorsBefore readBefore).add
      (foldsAlike_enclosed itemOperand) fun symbol same => ?_
    rw [same] at itemOperand
    cases itemOperand
  obtain ⟨similar, otherAfter, alike⟩ := changed.foldlM operatorsAfter last readAfter
  obtain ⟨other, otherFinished, foldsAlike⟩ := alike.finish whole finished
  obtain ⟨otherTree, otherFolds, same⟩ := foldsAlike.folds folds
  refine ⟨otherTree, gives_ofLine (by simp [Token.enclose]) ?_ otherFolds, same⟩
  rw [ofTokens, List.foldlM_append, readBefore]
  show Gives (List.foldlM _ reached (Token.enclose operand ++ after) >>= _) other
  rw [List.foldlM_append]
  refine Gives.bind ((Reading.gives_enclosed reads notInside).bind (.inl otherAfter)) ?_
  exact .inl otherFinished

/-- A whole line in parentheses is the group of its group. -/
theorem ofLine_enclosed (group : Group vocabulary tokens tree) :
    Gives (ofLine vocabulary (Token.enclose tokens)) (.group "" [tree] CompoundUnit.empty) := by
  have isOperand := isSign_of_operand (.parenthesis group)
  exact gives_of_group
    (.group (.operand .empty (.parenthesis group)) (.plain isOperand .nil) (level_alone _ tree))

/-- One more pair of parentheses around a whole line, or around an operand anywhere on it outside
of unit brackets, leaves the line accepted as far as depth allows, and its value or the error that
it fails with the same. -/
theorem parentheses_without_meaning (vocabulary : Vocabulary) (tokens : List Token) (tree : Node)
    (some : tokens ≠ []) (scanned : ∀ token ∈ tokens, ∃ line, token ∈ Token.scan line)
    (accepted : ofLine vocabulary tokens = .ok tree) :
    (∃ similar, Gives (ofLine vocabulary (Token.enclose tokens)) similar ∧
      SameValue tree similar) ∧
    ∀ before operand after node, tokens = before ++ (operand ++ after) →
      Operand vocabulary operand node → ¬ Token.InUnit tokens before.length →
      ∃ similar, Gives (ofLine vocabulary (before ++ (Token.enclose operand ++ after))) similar ∧
        SameValue tree similar := by
  have operators := operators_of_scanned scanned
  refine ⟨⟨_, ofLine_enclosed (group_of_ofLine some operators accepted), ?_⟩, ?_⟩
  · exact sameValue_enclosed tree
  · rintro before operand after node rfl isOperand outside
    exact ofLine_enclosed_operand operators isOperand outside accepted

/-- The argument of the root in `2^sqrt x [m]` may stand in parentheses. -/
theorem parentheses_without_meaning_of_argument : ∃ tree similar,
    ofLine ⟨["x"], Catalog.builtin⟩ (Token.meaningful (Token.scan "2^sqrt x [m]".toList)) =
      .ok tree ∧
    ofLine ⟨["x"], Catalog.builtin⟩ (Token.meaningful (Token.scan "2^sqrt (x) [m]".toList)) =
      .ok similar ∧ SameValue tree similar := by
  have cut : Token.meaningful (Token.scan "2^sqrt x [m]".toList) =
      [⟨.number, "2"⟩, ⟨.operator, "^"⟩, ⟨.literal, "sqrt"⟩, ⟨.literal, "x"⟩, ⟨.bracket, "["⟩,
        ⟨.literal, "m"⟩, ⟨.bracket, "]"⟩] := by
    cbv
  have enclosed : Token.meaningful (Token.scan "2^sqrt (x) [m]".toList) =
      [⟨.number, "2"⟩, ⟨.operator, "^"⟩, ⟨.literal, "sqrt"⟩] ++
        (Token.enclose [⟨.literal, "x"⟩] ++
          [⟨.bracket, "["⟩, ⟨.literal, "m"⟩, ⟨.bracket, "]"⟩]) := by
    cbv
  have scanned : ∀ token ∈ Token.meaningful (Token.scan "2^sqrt x [m]".toList),
      ∃ line, token ∈ Token.scan line :=
    fun token member => ⟨_, List.mem_of_mem_filter member⟩
  rw [cut] at scanned ⊢
  rw [enclosed]
  obtain ⟨similar, gives, same⟩ :=
    (parentheses_without_meaning ⟨["x"], Catalog.builtin⟩ _ _ (List.cons_ne_nil _ _) scanned rfl).2
      [⟨.number, "2"⟩, ⟨.operator, "^"⟩, ⟨.literal, "sqrt"⟩] [⟨.literal, "x"⟩]
      [⟨.bracket, "["⟩, ⟨.literal, "m"⟩, ⟨.bracket, "]"⟩] _ rfl
      (.reference ⟨by decide, List.mem_cons_self⟩) (by rw [Token.inUnit_iff rfl]; decide)
  exact ⟨_, similar, rfl, gives.eq_ok (fun tooDeep => by cases tooDeep), same⟩

end Grammar

end UnitSheet
