/-
This file says that folding differences before sums keeps the value of a group.

In `a + b - c + d` the difference is folded first, so that the tree adds `a`, `b - c` and `d` and is
not the one that reading from left to right would build. What is subtracted at the level of
differences is always a single operand, because no sum is folded before; so the tree of either level
is worth the signed sum of its operands (`evaluate_level`). The operands have no units: a sum has
the unit of its first operand and a difference has none, so with units the grouping would matter.
-/

import UnitSheet.Proofs.Compatibility
import UnitSheet.Proofs.Expressions
import UnitSheet.Proofs.Interpretation
import UnitSheet.Proofs.Numerals

namespace UnitSheet

open Grammar

/-! ### Exact sums and differences -/

namespace Quantity

/-- An exact number without a unit. -/
def unitless (value : ℚ) : Quantity ℚ :=
  ⟨value, CompoundUnit.empty⟩

theorem convert_unitless (value : ℚ) :
    (unitless value).convert CompoundUnit.empty = .ok (unitless value) := by
  have converted : CompoundUnit.empty.convert value CompoundUnit.empty = .ok value :=
    CompoundUnit.convert_self (fun _ member => absurd member List.not_mem_nil) value
  rw [convert, unitless, converted]
  rfl

end Quantity

open Quantity (unitless)

namespace Interpretation

variable {Fault : Type} (meaning : Interpretation ℚ Fault)

theorem operate_plus (left right : ℚ) :
    meaning.operate "+" (unitless left) (unitless right) = .ok (unitless (left + right)) := by
  have converted : (unitless right).convert (unitless left).unit = .ok (unitless right) :=
    Quantity.convert_unitless right
  rw [operate, converted]
  rfl

theorem operate_minus (left right : ℚ) :
    meaning.operate "-" (unitless left) (unitless right) = .ok (unitless (left - right)) := by
  have converted : (unitless right).convert (unitless left).unit = .ok (unitless right) :=
    Quantity.convert_unitless right
  rw [operate, converted]
  rfl

theorem annotate_unitless (value : ℚ) (unit : CompoundUnit ℚ) :
    meaning.annotate (unitless value) unit = .ok ⟨value, unit⟩ := by
  obtain ⟨powers⟩ := unit
  cases powers <;> rfl

/-- Numbers that are read exactly, where nothing else has a value. -/
def numerals : Interpretation ℚ Unit where
  number text := match Decimal.readNumeral? (Decimal.normalizeMarks text.toList) with
    | some numeral => .ok (unitless numeral.rational)
    | none => .error ()
  constant _ := .error ()
  reference _ := .error ()
  unit _ := CompoundUnit.empty
  power _ _ := .error ()
  call _ _ := .error ()
  conversion _ := ()
  defect _ := ()

theorem evaluate_number {text : String} {digits : ℕ}
    (read : Decimal.readNumeral? (Decimal.normalizeMarks text.toList) = some ⟨digits, 0⟩) :
    numerals.evaluate (.number text) = .ok (unitless digits) := by
  have exact : Decimal.Numeral.rational ⟨digits, 0⟩ = digits := by
    rw [Decimal.Numeral.rational, zpow_zero, mul_one]
  rw [evaluate, numerals]
  dsimp only
  rw [read]
  exact congrArg (fun value => Except.ok (unitless value)) exact

end Interpretation

/-! ### What is written -/

/-- Operands joined by plus and minus signs, perhaps after a leading minus. An operand with `true`
stands after a minus. -/
structure SignedSum where
  negated : Bool
  first : Node
  rest : List (Bool × Node)

namespace SignedSum

/-- The sign of an operand. -/
def sign (subtracted : Bool) : String :=
  if subtracted then "-" else "+"

/-- The operands after the first one, each with its sign. -/
def joints (sum : SignedSum) : List (String × Node) :=
  sum.rest.map fun term => (sign term.1, term.2)

/-- The items that are written. -/
def items (sum : SignedSum) : List Node :=
  if sum.negated then .sign "-" :: alternation sum.first sum.joints
  else alternation sum.first sum.joints

theorem items_ne_nil (sum : SignedSum) : sum.items ≠ [] := by
  rw [items]
  split <;> exact List.cons_ne_nil _ _

/-- The operands that are written. -/
def operands (sum : SignedSum) : List Node :=
  sum.first :: sum.rest.map Prod.snd

/-- What the operands come to when they are read from left to right. -/
def total (sum : SignedSum) (value : Node → ℚ) : ℚ :=
  sum.rest.foldl
    (fun total term => if term.1 then total - value term.2 else total + value term.2)
    (if sum.negated then -value sum.first else value sum.first)

/-- The operands have exact values without units. -/
def Valued {Fault : Type} (meaning : Interpretation ℚ Fault) (sum : SignedSum)
    (value : Node → ℚ) : Prop :=
  ∀ operand ∈ sum.operands, meaning.evaluate operand = .ok (unitless (value operand))

end SignedSum

/-! ### What is folded -/

namespace Grammar

/-- What operands after signs add to a sum. -/
def added (value : Node → ℚ) (rest : List (String × Node)) : ℚ :=
  (rest.map fun later => if later.1 = "-" then -value later.2 else value later.2).sum

theorem added_nil (value : Node → ℚ) : added value [] = 0 :=
  rfl

theorem added_append (value : Node → ℚ) (before after : List (String × Node)) :
    added value (before ++ after) = added value before + added value after := by
  rw [added, List.map_append, List.sum_append]
  rfl

theorem added_cons (value : Node → ℚ) (symbol : String) (operand : Node)
    (rest : List (String × Node)) : added value ((symbol, operand) :: rest) =
      (if symbol = "-" then -value operand else value operand) + added value rest :=
  List.sum_cons

variable {Fault : Type} {meaning : Interpretation ℚ Fault} {value : Node → ℚ}

/-- Below the level of differences there is none of sums. -/
def DifferencesLast (symbols : List String) : Prop :=
  symbols.Pairwise fun looser tighter => looser = "-" → tighter ≠ "+" ∧ tighter ≠ "-"

theorem differencesLast_levels : DifferencesLast levels := by
  unfold DifferencesLast
  decide

/-- The tree of operands joined by plus and minus signs is worth their signed sum. -/
theorem evaluate_level {symbols : List String} {first tree : Node} {rest : List (String × Node)}
    (level : Level symbols first rest tree) (order : DifferencesLast symbols)
    (signs : ∀ later ∈ rest, later.1 = "+" ∨ later.1 = "-") {start : ℚ}
    (atFirst : meaning.evaluate first = .ok (unitless start))
    (atRest : ∀ later ∈ rest, meaning.evaluate later.2 = .ok (unitless (value later.2))) :
    meaning.evaluate tree = .ok (unitless (start + added value rest)) := by
  induction level generalizing start with
  | operand node =>
    rw [atFirst, added_nil, add_zero]
  | tighter _ inductionHypothesis =>
    exact inductionHypothesis order.of_cons signs atFirst atRest
  | @operation symbol tighter first next before after left right _ tail leftHypothesis
      rightHypothesis =>
    obtain ⟨beforeSigns, signs⟩ := List.forall_mem_append.mp signs
    obtain ⟨beforeValues, values⟩ := List.forall_mem_append.mp atRest
    obtain ⟨here, afterSigns⟩ := List.forall_mem_cons.mp signs
    obtain ⟨atNext, afterValues⟩ := List.forall_mem_cons.mp values
    obtain ⟨above, below⟩ := List.pairwise_cons.mp order
    have atLeft := leftHypothesis order beforeSigns atFirst beforeValues
    have atRight := rightHypothesis below afterSigns atNext afterValues
    rw [Interpretation.evaluate, atLeft, atRight, added_append, added_cons, ← add_assoc]
    show meaning.operate symbol (unitless _) (unitless _) = _
    rcases here with rfl | rfl
    · rw [meaning.operate_plus, if_neg (by decide)]
    · -- What is subtracted is read with tighter operators only, so no sign stands in it.
      have none : after = [] := by
        refine List.eq_nil_iff_forall_not_mem.mpr fun later member => ?_
        have other := above _ (mem_of_level tail later member) rfl
        exact (afterSigns later member).elim other.1 other.2
      subst none
      rw [meaning.operate_minus, if_pos rfl, sub_eq_add_neg, added_nil, add_zero, add_zero]

end Grammar

namespace SignedSum

variable {Fault : Type} {meaning : Interpretation ℚ Fault} {value : Node → ℚ} {sum : SignedSum}

/-- Reading from left to right adds up the operands with their signs. -/
theorem total_eq (sum : SignedSum) (value : Node → ℚ) : sum.total value =
    (if sum.negated then -value sum.first else value sum.first) + added value sum.joints := by
  rw [total, joints]
  generalize (if sum.negated then -value sum.first else value sum.first) = start
  induction sum.rest generalizing start with
  | nil => rw [List.map_nil, added_nil, add_zero, List.foldl_nil]
  | cons term rest inductionHypothesis =>
    obtain ⟨subtracted, operand⟩ := term
    rw [List.foldl_cons, inductionHypothesis, List.map_cons, added_cons, ← add_assoc]
    cases subtracted with
    | true => rw [sign, if_pos rfl, if_pos rfl, if_pos rfl, sub_eq_add_neg]
    | false =>
      rw [sign, if_neg Bool.false_ne_true, if_neg Bool.false_ne_true, if_neg (by decide)]

theorem Valued.isSign_eq_false (valued : sum.Valued meaning value) {operand : Node}
    (member : operand ∈ sum.operands) : operand.isSign = false := by
  cases operand with
  | sign symbol => cases valued _ member
  | _ => rfl

theorem of_mem_joints {later : String × Node} (member : later ∈ sum.joints) :
    (later.1 = "+" ∨ later.1 = "-") ∧ later.2 ∈ sum.operands := by
  obtain ⟨⟨subtracted, operand⟩, inRest, rfl⟩ := List.mem_map.mp member
  refine ⟨?_, List.mem_cons_of_mem _ (List.mem_map_of_mem inRest)⟩
  cases subtracted with
  | true => exact .inr rfl
  | false => exact .inl rfl

/-- What is written is read as an alternation, which has the operands and a zero that a leading
minus subtracts from. -/
theorem Valued.exists_signed (valued : sum.Valued meaning value)
    (zero : meaning.number "0" = .ok (unitless 0)) : ∃ first rest start,
      Signed sum.items first rest ∧ (∀ later ∈ rest, later.1 = "+" ∨ later.1 = "-") ∧
        meaning.evaluate first = .ok (unitless start) ∧
        (∀ later ∈ rest, meaning.evaluate later.2 = .ok (unitless (value later.2))) ∧
        sum.total value = start + added value rest := by
  have isOperand := valued.isSign_eq_false List.mem_cons_self
  have operands : Operands sum.joints :=
    fun later member => valued.isSign_eq_false (of_mem_joints member).2
  have signs : ∀ later ∈ sum.joints, later.1 = "+" ∨ later.1 = "-" :=
    fun later member => (of_mem_joints member).1
  have atFirst := valued _ List.mem_cons_self
  have values : ∀ later ∈ sum.joints, meaning.evaluate later.2 = .ok (unitless (value later.2)) :=
    fun later member => valued _ (of_mem_joints member).2
  rw [items, total_eq]
  by_cases negated : sum.negated = true
  · rw [if_pos negated, if_pos negated]
    refine ⟨_, _, 0, .negated isOperand operands, List.forall_mem_cons.mpr ⟨.inr rfl, signs⟩, zero,
      List.forall_mem_cons.mpr ⟨atFirst, values⟩, ?_⟩
    rw [added_cons, if_pos rfl, zero_add]
  · rw [if_neg negated, if_neg negated]
    exact ⟨_, _, _, .plain isOperand operands, signs, atFirst, values, rfl⟩

/-- The group of a signed sum has the value of reading it from left to right. -/
theorem Valued.evaluate_group (valued : sum.Valued meaning value)
    (zero : meaning.number "0" = .ok (unitless 0)) {first tree : Node}
    {rest : List (String × Node)} (signed : Signed sum.items first rest)
    (level : Level levels first rest tree) (label : String) (unit : CompoundUnit Float) :
    meaning.evaluate (.group label [tree] unit) = .ok ⟨sum.total value, meaning.unit unit⟩ := by
  obtain ⟨head, tail, start, read, signs, atHead, values, total⟩ := valued.exists_signed zero
  obtain ⟨rfl, rfl⟩ := signed.unique read
  have exact := evaluate_level level differencesLast_levels signs atHead values
  rw [Interpretation.evaluate, exact, ← total]
  exact meaning.annotate_unitless _ _

end SignedSum

/-! ### The groups of a line -/

namespace Grammar

end Grammar

end UnitSheet
