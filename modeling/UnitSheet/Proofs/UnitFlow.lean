/-
This file says that the unit of a result does not depend on the numbers of a document.

Two documents are compared that are the same up to their numbers. No operation lets a number into
a unit but the power, whose right operand is the exponent: products and quotients change the value
when they merge units, and never the other way round. So two trees that differ in numbers, but not
in exponents (`Node.Alike`), have values in the same unit as long as the names in them do
(`Alike.evaluate`), and by induction along the order of evaluation all lines do that have a value
in both documents.
-/

import UnitSheet.Proofs.Masking
import UnitSheet.Proofs.Propagation

namespace UnitSheet

/-! ### Two computations -/

/-- The values of two computations are related, as far as both have one. -/
def Matches {ε δ α β : Type} (related : α → β → Prop) (first : Except ε α) (second : Except δ β) :
    Prop :=
  ∀ value other, first = .ok value → second = .ok other → related value other

section

variable {ε δ α β γ κ : Type} {related : α → β → Prop} {further : γ → κ → Prop}

theorem matches_ok {value : α} {other : β} (both : related value other) :
    Matches related (.ok value : Except ε α) (.ok other : Except δ β) := by
  rintro _ _ ⟨⟩ ⟨⟩
  exact both

theorem matches_error_left (cause : ε) (second : Except δ β) :
    Matches related (.error cause : Except ε α) second :=
  fun _ _ equal => nomatch equal

theorem matches_error_right (first : Except ε α) (cause : δ) :
    Matches related first (.error cause : Except δ β) :=
  fun _ _ _ equal => nomatch equal

theorem Matches.bind {first : Except ε α} {second : Except δ β} {next : α → Except ε γ}
    {after : β → Except δ κ} (both : Matches related first second)
    (rest : ∀ value other, related value other → Matches further (next value) (after other)) :
    Matches further (first >>= next) (second >>= after) := by
  intro result changed equal reequal
  obtain ⟨value, known, equal⟩ := bind_eq_ok.mp equal
  obtain ⟨other, reknown, reequal⟩ := bind_eq_ok.mp reequal
  exact rest value other (both value other known reknown) result changed equal reequal

/-- Whatever the values are, it is the rest that counts. -/
theorem Matches.bind_any {first : Except ε α} {second : Except δ β} {next : α → Except ε γ}
    {after : β → Except δ κ} (rest : ∀ value other, Matches further (next value) (after other)) :
    Matches further (first >>= next) (second >>= after) := by
  have unrelated : Matches (fun _ _ => True) first second := fun _ _ _ _ => trivial
  exact unrelated.bind fun value other _ => rest value other

theorem Matches.mapError {first : Except ε α} {second : Except δ β}
    (both : Matches related first second) {ζ η : Type} (change : ε → ζ) (rechange : δ → η) :
    Matches related (first.mapError change) (second.mapError rechange) :=
  fun value other equal reequal =>
    both value other (mapError_eq_ok.mp equal) (mapError_eq_ok.mp reequal)

end

/-! ### Operations -/

/-- The powers of a merge do not depend on the value. -/
theorem CompoundUnit.matches_mergePowers (value other : Float)
    (first second : List (UnitPower Float)) :
    Matches (fun merged changed => merged.2 = changed.2) (mergePowers value first second)
      (mergePowers other first second) := by
  induction value, first, second using mergePowers.induct generalizing other with
  | case1 value second =>
    rw [mergePowers, mergePowers]
    exact matches_ok rfl
  | case2 value first nonempty =>
    rw [mergePowers, mergePowers]
    · exact matches_ok rfl
    · exact nonempty
    · exact nonempty
  | case3 value left lefts right rights same inductionHypothesis =>
    rw [mergePowers, mergePowers, if_pos same, if_pos same]
    refine .bind_any fun converted changed => ?_
    refine (inductionHypothesis converted changed).bind fun merged remerged agree => ?_
    exact matches_ok (by rw [agree])
  | case4 value left lefts right rights differs before inductionHypothesis =>
    rw [mergePowers, mergePowers, if_neg differs, if_neg differs, if_pos before, if_pos before]
    refine (inductionHypothesis other).bind fun merged remerged agree => ?_
    exact matches_ok (by rw [agree])
  | case5 value left lefts right rights differs notBefore inductionHypothesis =>
    rw [mergePowers, mergePowers, if_neg differs, if_neg differs, if_neg notBefore,
      if_neg notBefore]
    refine (inductionHypothesis other).bind fun merged remerged agree => ?_
    exact matches_ok (by rw [agree])

namespace Quantity

variable {first second other another : Quantity Float}

/-- Two quantities are in the same unit. -/
def SameUnit (first second : Quantity Float) : Prop :=
  first.unit = second.unit

theorem matches_convert (first second : Quantity Float) (target : CompoundUnit Float) :
    Matches SameUnit (first.convert target) (second.convert target) :=
  .bind_any fun _ _ => matches_ok rfl

theorem matches_annotate (same : SameUnit first second) (unit : CompoundUnit Float) :
    Matches SameUnit (first.annotate unit) (second.annotate unit) := by
  unfold annotate
  rw [show first.unit = second.unit from same]
  split_ifs
  · exact matches_ok same
  · exact matches_ok rfl
  · exact (matches_convert first second unit).mapError _ _

theorem matches_multiply (left : SameUnit first other) (right : SameUnit second another) :
    Matches SameUnit (first.multiply second) (other.multiply another) := by
  unfold multiply
  rw [show first.unit = other.unit from left, show second.unit = another.unit from right]
  refine (CompoundUnit.matches_mergePowers _ _ _ _).bind fun merged remerged agree => ?_
  exact matches_ok (congrArg (fun powers => CompoundUnit.canonical ⟨powers⟩) agree)

/-- Dividing by a number that is not zero is multiplying by another one. -/
theorem matches_divide (left : SameUnit first other) (right : SameUnit second another) :
    Matches SameUnit (first.divide second) (other.divide another) := by
  unfold divide
  split_ifs
  · exact matches_error_left _ _
  · exact matches_error_left _ _
  · exact matches_error_right _ _
  · refine .bind_any fun reciprocal changed => matches_multiply left ?_
    exact congrArg (CompoundUnit.power · _) right

/-- Only the exponent of a power takes part in the unit with its value. -/
theorem matches_operate {symbol : String} (known : symbol ∈ Node.foldOrder)
    (left : SameUnit first other) (right : SameUnit second another)
    (exponent : symbol = "^" → second = another) :
    Matches SameUnit (operate symbol first second) (operate symbol other another) := by
  have cases : symbol = "^" ∨ symbol = "*" ∨ symbol = "/" ∨ symbol = "-" ∨ symbol = "+" := by
    simpa [Node.foldOrder] using known
  rcases cases with rfl | rfl | rfl | rfl | rfl
  · obtain rfl := exponent rfl
    show Matches SameUnit (if second.unit.isEmpty then _ else _)
      (if second.unit.isEmpty then _ else _)
    split
    · exact .bind_any fun _ _ => matches_ok (congrArg (CompoundUnit.power · second.value) left)
    · exact matches_error_left _ _
  · exact (matches_multiply left right).mapError _ _
  · exact (matches_divide left right).mapError _ _
  · exact .bind_any fun _ _ => matches_ok rfl
  · exact .bind_any fun _ _ => matches_ok left

theorem matches_keepingUnit (same : SameUnit first second)
    (function : Float → Except ArithmeticError Float) :
    Matches SameUnit (keepingUnit function first) (keepingUnit function second) :=
  .bind_any fun _ _ => matches_ok same

theorem matches_trigonometric (same : SameUnit first second) (function : Float → Float) :
    Matches SameUnit (trigonometric function first) (trigonometric function second) := by
  unfold trigonometric
  rw [show first.unit = second.unit from same]
  dsimp only
  split_ifs
  · exact .bind_any fun _ _ => matches_ok rfl
  · exact .bind_any fun _ _ => .bind_any fun _ _ => matches_ok rfl
  · exact .bind_any fun _ _ => matches_ok rfl

theorem matches_call {name : String} (known : name ∈ Vocabulary.functions)
    (same : SameUnit first second) : Matches SameUnit (call name first) (call name second) := by
  have cases : name = "sqrt" ∨ name = "log" ∨ name = "ln" ∨ name = "sin" ∨ name = "cos" ∨
      name = "tan" ∨ name = "abs" ∨ name = "round" ∨ name = "ceil" ∨ name = "floor" := by
    simpa [Vocabulary.functions] using known
  rcases cases with rfl | rfl | rfl | rfl | rfl | rfl | rfl | rfl | rfl | rfl
  · exact .bind_any fun _ _ => matches_ok (congrArg (CompoundUnit.power · _) same)
  · exact matches_keepingUnit same _
  · exact matches_keepingUnit same _
  · exact matches_trigonometric same _
  · exact matches_trigonometric same _
  · exact matches_trigonometric same _
  · exact matches_keepingUnit same fun value => .ok value.abs
  · exact matches_keepingUnit same _
  · exact matches_keepingUnit same _
  · exact matches_keepingUnit same _

end Quantity

/-! ### Trees -/

namespace Node

mutual

/-- The right operands of the powers in a tree. -/
def exponents : Node → List Node
  | .function _ arguments => exponentsOfAll arguments
  | .operation symbol operands =>
    exponentsOfAll operands ++ if symbol = "^" then operands.tail else []
  | .group _ items _ => exponentsOfAll items
  | _ => []

/-- The right operands of the powers in several trees. -/
def exponentsOfAll : List Node → List Node
  | [] => []
  | node :: rest => node.exponents ++ exponentsOfAll rest

end

mutual

/-- There are as many powers, whatever the numbers are. -/
theorem length_exponents_masked (node : Node) :
    node.masked.exponents.length = node.exponents.length := by
  match node with
  | .number _ | .constant _ | .reference _ | .sign _ | .bracket _ => rfl
  | .function name arguments => exact length_exponentsOfAll_masked arguments
  | .group label items unit => exact length_exponentsOfAll_masked items
  | .operation symbol operands =>
    show (exponentsOfAll (maskedAll operands) ++
        if symbol = "^" then (maskedAll operands).tail else []).length =
      (exponentsOfAll operands ++ if symbol = "^" then operands.tail else []).length
    rw [List.length_append, List.length_append, length_exponentsOfAll_masked operands,
      maskedAll_eq_map]
    split <;> simp
termination_by sizeOf node

theorem length_exponentsOfAll_masked (nodes : List Node) :
    (exponentsOfAll (maskedAll nodes)).length = (exponentsOfAll nodes).length := by
  match nodes with
  | [] => rfl
  | node :: rest =>
    rw [maskedAll, exponentsOfAll, exponentsOfAll, List.length_append, List.length_append,
      length_exponents_masked node, length_exponentsOfAll_masked rest]
termination_by sizeOf nodes

end

theorem length_exponents_of_masked {tree other : Node} (same : tree.masked = other.masked) :
    tree.exponents.length = other.exponents.length := by
  rw [← length_exponents_masked, same, length_exponents_masked]

theorem exponents_function (name : String) (argument : Node) :
    (function name [argument]).exponents = argument.exponents :=
  List.append_nil _

theorem exponents_group (label : String) (item : Node) (unit : CompoundUnit Float) :
    (group label [item] unit).exponents = item.exponents :=
  List.append_nil _

theorem exponents_operation (symbol : String) (left right : Node) :
    (operation symbol [left, right]).exponents =
      left.exponents ++ (right.exponents ++ if symbol = "^" then [right] else []) := by
  show (left.exponents ++ (right.exponents ++ [])) ++ _ = _
  rw [List.append_nil, List.append_assoc]
  rfl

/-- Trees that are the same up to their numbers, where exponents have the same value whatever the
names stand for. -/
inductive Alike (refers : String → Prop) : Node → Node → Prop
  | number (text other : String) : Alike refers (.number text) (.number other)
  | reference {name : String} : refers name → Alike refers (.reference name) (.reference name)
  | constant {name : String} : Alike refers (.constant name) (.constant name)
  | function {name : String} {argument other : Node} : name ∈ Vocabulary.functions →
      Alike refers argument other →
      Alike refers (.function name [argument]) (.function name [other])
  | operation {symbol : String} {left right other another : Node} : symbol ∈ foldOrder →
      Alike refers left other → Alike refers right another →
      (symbol = "^" → ∀ meaning changed, right.evaluate meaning = another.evaluate changed) →
      Alike refers (.operation symbol [left, right]) (.operation symbol [other, another])
  | group {label : String} {item other : Node} {unit : CompoundUnit Float} :
      Alike refers item other → Alike refers (.group label [item] unit) (.group label [other] unit)

open Quantity

variable {refers : String → Prop} {given : CompoundUnit Float → Prop} {tree other : Node}
  {meaning changed : String → Evaluated (Quantity Float)}

/-- Trees that are alike have values in the same unit, as long as the names in them do. -/
theorem Alike.evaluate (alike : Alike refers tree other)
    (names : ∀ name, refers name → Matches SameUnit (meaning name) (changed name)) :
    Matches SameUnit (tree.evaluate meaning) (other.evaluate changed) := by
  induction alike with
  | number text other =>
    unfold Node.evaluate ofTyped
    split
    · split
      · exact matches_ok rfl
      · exact matches_error_right _ _
    · exact matches_error_left _ _
  | reference known => exact names _ known
  | constant =>
    intro value second equal same
    cases equal.symm.trans same
    rfl
  | function known _ argument =>
    rw [Node.evaluate, Node.evaluate]
    exact argument.bind fun _ _ same => matches_call known same
  | @operation symbol _ right _ another known _ _ exponent left rightUnits =>
    rw [Node.evaluate, Node.evaluate]
    have both : Matches
        (fun value second => SameUnit value second ∧ (symbol = "^" → value = second))
        (right.evaluate meaning) (another.evaluate changed) := by
      refine fun value second equal same => ⟨rightUnits value second equal same, fun power => ?_⟩
      rw [exponent power meaning changed] at equal
      exact Except.ok.inj (equal.symm.trans same)
    exact left.bind fun _ _ leftSame => both.bind fun _ _ rightSame =>
      matches_operate known leftSame rightSame.1 rightSame.2
  | group _ item =>
    rw [Node.evaluate, Node.evaluate]
    exact item.bind fun _ _ same => matches_annotate same _

/-- An exponent without names has the same value whatever names stand for. -/
theorem Expression.evaluate_eq_of_closed (expression : tree.Expression refers given)
    (closed : ∀ name, ¬ Within (.reference name) tree) :
    tree.evaluate meaning = tree.evaluate changed :=
  expression.narrow.evaluate_congr fun name within => absurd within (closed name)

/-- Expressions that are the same up to their numbers are alike if they have the same exponents and
no name stands in one. -/
theorem Expression.alike_of_masked (expression : tree.Expression refers given)
    (same : tree.masked = other.masked) (exponents : tree.exponents = other.exponents)
    (closed : ∀ exponent ∈ tree.exponents, ∀ name, ¬ Within (.reference name) exponent) :
    Alike refers tree other := by
  induction expression generalizing other with
  | number text =>
    cases other <;> cases same
    exact .number text _
  | reference known =>
    cases other <;> cases same
    exact .reference known
  | constant =>
    cases other <;> cases same
    exact .constant
  | function known _ inductionHypothesis =>
    obtain ⟨others, rfl, arguments⟩ := exists_of_masked_function same
    obtain ⟨another, rfl, argument⟩ := List.map_eq_singleton_iff.mp arguments.symm
    rw [exponents_function] at exponents closed
    rw [exponents_function] at exponents
    exact .function known (inductionHypothesis argument.symm exponents closed)
  | group _ _ inductionHypothesis =>
    obtain ⟨others, rfl, items⟩ := exists_of_masked_group same
    obtain ⟨another, rfl, item⟩ := List.map_eq_singleton_iff.mp items.symm
    rw [exponents_group] at exponents closed
    rw [exponents_group] at exponents
    exact .group (inductionHypothesis item.symm exponents closed)
  | @operation symbol left right known _ rightExpression leftHypothesis rightHypothesis =>
    obtain ⟨others, rfl, operands⟩ := exists_of_masked_operation same
    obtain ⟨otherLeft, tail, rfl, leftSame, operands⟩ := List.map_eq_cons_iff.mp operands.symm
    obtain ⟨otherRight, rfl, rightSame⟩ := List.map_eq_singleton_iff.mp operands
    rw [exponents_operation, exponents_operation] at exponents
    rw [exponents_operation] at closed
    obtain ⟨ofLeft, exponents⟩ :=
      List.append_inj exponents (length_exponents_of_masked leftSame.symm)
    obtain ⟨ofRight, exponent⟩ :=
      List.append_inj exponents (length_exponents_of_masked rightSame.symm)
    obtain ⟨leftClosed, closed⟩ := List.forall_mem_append.mp closed
    obtain ⟨rightClosed, closed⟩ := List.forall_mem_append.mp closed
    refine .operation known (leftHypothesis leftSame.symm ofLeft leftClosed)
      (rightHypothesis rightSame.symm ofRight rightClosed) fun power meaning changed => ?_
    rw [if_pos power, if_pos power] at exponent
    rw [if_pos power] at closed
    rw [← List.singleton_inj.mp exponent]
    exact rightExpression.evaluate_eq_of_closed (closed right List.mem_cons_self)

end Node

/-! ### Worksheets -/

/-- The name and the tokens of a line are what its declaration is split into. -/
theorem Draft.splitDeclaration_ofText (text : List Char) :
    splitDeclaration (Token.meaningful (ofText text).rawTokens) =
      ((ofText text).name, (ofText text).tokens) := by
  unfold ofText
  split <;> rfl

namespace Sheet

open Quantity

variable {catalog : Catalog} {source changed : String} {sheet other : Sheet}
  {outcomes others : List Outcome} {line counterpart : Line}

/-- The tokens of a line that take part in its meaning, without the texts of the numbers outside of
unit brackets. -/
def Line.masked (line : Line) : List Token :=
  Token.masked false (Token.meaningful line.rawTokens)

/-- Lines at the same place that can be read have the same exponents, and no name stands in one. -/
def ShareExponents (sheet other : Sheet) : Prop :=
  ∀ (index : Nat) (line counterpart : Line) (tree another : Node),
    sheet.lines[index]? = some line → other.lines[index]? = some counterpart →
    line.tree = .ok tree → counterpart.tree = .ok another →
      tree.exponents = another.exponents ∧
        ∀ exponent ∈ tree.exponents, ∀ name, ¬ Node.Within (.reference name) exponent

/-- What a line declares, and its other tokens, can be told from the masked tokens. -/
theorem splitDeclaration_masked_line (compiled : compile catalog source = .ok sheet)
    (member : line ∈ sheet.lines) :
    Draft.splitDeclaration line.masked = (line.name, Token.masked false line.tokens) := by
  obtain ⟨text, rfl⟩ := exists_text_of_mem compiled member
  show Draft.splitDeclaration
    (Token.masked false (Token.meaningful (Draft.ofText text).rawTokens)) = _
  rw [Draft.splitDeclaration_masked, Draft.splitDeclaration_ofText]
  rfl

/-- The names of a worksheet are those that its lines declare. -/
theorem names_of_compile (compiled : compile catalog source = .ok sheet) :
    sheet.names = Table.ofList ((sheet.lines.map Line.name).zipIdx.filterMap fun (name, index) =>
      name.map fun name => (name, index)) := by
  rw [(compile_eq_ok_iff.mp compiled).1]
  simp only [ofDrafts, List.map_map, List.zipIdx_map, List.filterMap_map, Draft.declarations]
  rfl

/-- Worksheets of the same masked lines have the same names. -/
theorem names_eq_of_masked (compiled : compile catalog source = .ok sheet)
    (recompiled : compile catalog changed = .ok other)
    (same : sheet.lines.map Line.masked = other.lines.map Line.masked) :
    sheet.names = other.names := by
  have told {source : String} {sheet : Sheet} (compiled : compile catalog source = .ok sheet) :
      sheet.lines.map Line.name =
        (sheet.lines.map Line.masked).map fun tokens => (Draft.splitDeclaration tokens).1 := by
    rw [List.map_map]
    exact List.map_congr_left fun line member =>
      (congrArg Prod.fst (splitDeclaration_masked_line compiled member)).symm
  rw [names_of_compile compiled, names_of_compile recompiled, told compiled, told recompiled, same]

theorem masked_tokens_eq (compiled : compile catalog source = .ok sheet)
    (recompiled : compile catalog changed = .ok other) (member : line ∈ sheet.lines)
    (remember : counterpart ∈ other.lines) (same : line.masked = counterpart.masked) :
    Token.masked false line.tokens = Token.masked false counterpart.tokens := by
  have first := splitDeclaration_masked_line compiled member
  have second := splitDeclaration_masked_line recompiled remember
  rw [same, second] at first
  exact (congrArg Prod.snd first).symm

theorem isBlank_eq_of_masked
    (same : Token.masked false line.tokens = Token.masked false counterpart.tokens) :
    line.isBlank = counterpart.isBlank := by
  rw [Line.isBlank, Line.isBlank, Bool.eq_iff_iff, List.isEmpty_iff, List.isEmpty_iff,
    ← Token.masked_eq_nil_iff, same, Token.masked_eq_nil_iff]

/-- Lines that are the same up to their numbers have trees that are alike. -/
theorem alike_of_masked (compiled : compile catalog source = .ok sheet)
    (recompiled : compile catalog changed = .ok other) (names : sheet.names = other.names)
    (member : line ∈ sheet.lines) (remember : counterpart ∈ other.lines)
    (same : Token.masked false line.tokens = Token.masked false counterpart.tokens)
    (some : line.isBlank = false) {tree another : Node} (read : line.tree = .ok tree)
    (reread : counterpart.tree = .ok another) (exponents : tree.exponents = another.exponents)
    (closed : ∀ exponent ∈ tree.exponents, ∀ name, ¬ Node.Within (.reference name) exponent) :
    Node.Alike (sheet.Refers line) tree another := by
  have expression := expression_of_compile compiled member some read
  refine expression.alike_of_masked ?_ exponents closed
  refine Node.masked_eq_of_ofLine (List.isEmpty_eq_false_iff.mp some) same
    (ofLine_of_compile compiled member read) ?_
  rw [names]
  exact ofLine_of_compile recompiled remember reread

/-- A line that is not evaluated has no unit. -/
theorem unit_eq_empty_of_unevaluated {quantity : Quantity Float}
    (equal : line.unevaluated = .ok quantity) : quantity.unit = CompoundUnit.empty := by
  unfold Line.unevaluated at equal
  split at equal
  · cases equal
  · cases equal
    rfl

/-- Where a line has a value in both runs, it has the same unit in both. -/
def SameUnitAt (outcomes others : List Outcome) (index : Nat) : Prop :=
  ∀ quantity second, outcomes[index]? = some (.ok quantity) →
    others[index]? = some (.ok second) → SameUnit quantity second

/-- A name stands for quantities in the same unit if its line has such values. -/
theorem matches_meaning {name : String} {target : Nat} (names : sheet.names = other.names)
    (stands : sheet.names.find? name = some target) (known : SameUnitAt outcomes others target) :
    Matches SameUnit (sheet.meaning outcomes name) (other.meaning others name) := by
  intro value second meant remeant
  obtain ⟨_, _, same, _, _, has⟩ := exists_of_meaning_eq_ok meant
  cases stands.symm.trans same
  obtain ⟨_, _, same, _, _, rehas⟩ := exists_of_meaning_eq_ok remeant
  rw [← names] at same
  cases stands.symm.trans same
  exact known value second has rehas

/-- A line of worksheets that are the same up to their numbers keeps its unit, if the lines that it
depends on do. -/
theorem Settled.sameUnitAt (compiled : compile catalog source = .ok sheet)
    (recompiled : compile catalog changed = .ok other)
    (same : sheet.lines.map Line.masked = other.lines.map Line.masked)
    (exponents : sheet.ShareExponents other) (settled : sheet.Settled outcomes)
    (resettled : other.Settled others) {index : Nat} (found : sheet.lines[index]? = some line)
    (known : ∀ target ∈ line.dependencies, SameUnitAt outcomes others target) :
    SameUnitAt outcomes others index := by
  intro quantity second has rehas
  obtain ⟨counterpart, refound, sameLine⟩ :
      ∃ counterpart, other.lines[index]? = some counterpart ∧ counterpart.masked = line.masked := by
    have atIndex := congrArg (·[index]?) same
    simp only [List.getElem?_map, found, Option.map_some] at atIndex
    exact Option.map_eq_some_iff.mp atIndex.symm
  obtain ⟨_, hasSame, equal⟩ := settled.settled index line found
  cases has.symm.trans hasSame
  obtain ⟨_, rehasSame, reequal⟩ := resettled.settled index counterpart refound
  cases rehas.symm.trans rehasSame
  have member := List.mem_of_getElem? found
  have remember := List.mem_of_getElem? refound
  have tokens := masked_tokens_eq compiled recompiled member remember sameLine.symm
  have blankSame := isBlank_eq_of_masked tokens
  cases blank : line.isBlank with
  | true =>
    rw [Line.Idle.outcome_eq (.inl blank)] at equal
    rw [Line.Idle.outcome_eq (.inl (blankSame.symm.trans blank))] at reequal
    exact (unit_eq_empty_of_unevaluated (Except.ok.inj equal)).trans
      (unit_eq_empty_of_unevaluated (Except.ok.inj reequal)).symm
  | false =>
    obtain ⟨tree, read, evaluated⟩ := Line.exists_tree_of_outcome blank equal
    obtain ⟨another, reread, reevaluated⟩ :=
      Line.exists_tree_of_outcome (blankSame.symm.trans blank) reequal
    obtain ⟨sameExponents, closed⟩ :=
      exponents index line counterpart tree another found refound read reread
    have names := names_eq_of_masked compiled recompiled same
    have alike := alike_of_masked compiled recompiled names member remember tokens blank read reread
      sameExponents closed
    refine alike.evaluate ?_ quantity second evaluated reevaluated
    rintro name ⟨target, depends, stands⟩
    exact matches_meaning names stands (known target depends)

/-- Two documents without cycles that are the same up to their numbers outside of unit brackets,
and have the same exponents, in which no name stands, have results in the same units: every line
that has a value in both documents has the same unit in both. -/
theorem units_ignore_numbers (compiled : compile catalog source = .ok sheet)
    (recompiled : compile catalog changed = .ok other)
    (same : sheet.lines.map Line.masked = other.lines.map Line.masked)
    (exponents : sheet.ShareExponents other) :
    ∃ outcomes others, run catalog source = .ok (sheet, outcomes) ∧
      run catalog changed = .ok (other, others) ∧
      ∀ (index : Nat) (quantity second : Quantity Float), outcomes[index]? = some (.ok quantity) →
        others[index]? = some (.ok second) → quantity.unit = second.unit := by
  obtain ⟨outcomes, ran, settled⟩ := exists_run_of_compile compiled
  obtain ⟨others, reran, resettled⟩ := exists_run_of_compile recompiled
  refine ⟨outcomes, others, ran, reran, fun index quantity second has rehas => ?_⟩
  have inside : index < sheet.lines.length :=
    settled.length ▸ (List.getElem?_eq_some_iff.mp has).1
  refine (linked_of_compile compiled).induction (motive := SameUnitAt outcomes others)
    (fun index line found known => ?_) inside quantity second has rehas
  exact settled.sameUnitAt compiled recompiled same exponents resettled found known

/-- The square of a length is in the same unit, whatever the length is. -/
theorem units_ignore_numbers_of_square : ∃ sheet other outcomes others,
    run Catalog.builtin "x: 2 [m]\nx^2" = .ok (sheet, outcomes) ∧
    run Catalog.builtin "x: 5 [m]\nx^2" = .ok (other, others) ∧
    ∀ quantity second, outcomes[1]? = some (.ok quantity) → others[1]? = some (.ok second) →
      quantity.unit = second.unit := by
  obtain ⟨side, sideMade⟩ : ∃ side : String → Draft, ∀ text, side text = ⟨some "x",
    [⟨.number, text⟩, ⟨.bracket, "["⟩, ⟨.literal, "m"⟩, ⟨.bracket, "]"⟩],
    [⟨.literal, "x"⟩, ⟨.definition, ":"⟩, ⟨.whitespace, " "⟩, ⟨.number, text⟩, ⟨.whitespace, " "⟩,
      ⟨.bracket, "["⟩, ⟨.literal, "m"⟩, ⟨.bracket, "]"⟩], none⟩ := ⟨_, fun _ => rfl⟩
  obtain ⟨square, squareMade⟩ : ∃ square : Draft, square =
    ⟨none, [⟨.literal, "x"⟩, ⟨.operator, "^"⟩, ⟨.number, "2"⟩],
      [⟨.literal, "x"⟩, ⟨.operator, "^"⟩, ⟨.number, "2"⟩], none⟩ := ⟨_, rfl⟩
  have drafts : (Text.sheetLines "x: 2 [m]\nx^2").map Draft.ofText = [side "2", square] := by
    rw [sideMade, squareMade]
    cbv
  have redrafts : (Text.sheetLines "x: 5 [m]\nx^2").map Draft.ofText = [side "5", square] := by
    rw [sideMade, squareMade]
    cbv
  have acyclic (text : String) :
      (ofDrafts Catalog.builtin [side text, square]).dependencies.isCyclic = false := by
    have depends : Draft.dependencies [side text, square] = [[], [0]] := by
      rw [sideMade, squareMade]
      rfl
    rw [dependencies_ofDrafts, depends]
    cbv
  have compiled : compile Catalog.builtin "x: 2 [m]\nx^2" = .ok _ :=
    compile_eq_ok_iff.mpr ⟨rfl, drafts ▸ acyclic "2"⟩
  have recompiled : compile Catalog.builtin "x: 5 [m]\nx^2" = .ok _ :=
    compile_eq_ok_iff.mpr ⟨rfl, redrafts ▸ acyclic "5"⟩
  rw [drafts] at compiled
  rw [redrafts] at recompiled
  have same : (ofDrafts Catalog.builtin [side "2", square]).lines.map Line.masked =
      (ofDrafts Catalog.builtin [side "5", square]).lines.map Line.masked := by
    rw [sideMade, sideMade, squareMade]
    rfl
  have exponents : ShareExponents (ofDrafts Catalog.builtin [side "2", square])
      (ofDrafts Catalog.builtin [side "5", square]) := by
    intro index line counterpart tree another found refound read reread
    have keys (text : String) : (Draft.declarations [side text, square]).keys = ["x"] := by
      rw [sideMade, squareMade]
      rfl
    rcases index with _ | _ | index
    · cases found
      cases refound
      have read := Line.ofLine_of_tree read
      have reread := Line.ofLine_of_tree reread
      rw [keys, sideMade] at read reread
      have none : ∀ text ∈ ["2", "5"], (Node.ofLine ⟨["x"], Catalog.builtin⟩ [⟨.number, text⟩,
          ⟨.bracket, "["⟩, ⟨.literal, "m"⟩, ⟨.bracket, "]"⟩]).toOption.all
            (fun tree => tree.exponents.isEmpty) = true := by
        decide +kernel
      have first := none "2" (by simp)
      have second := none "5" (by simp)
      rw [read] at first
      rw [reread] at second
      rw [List.isEmpty_iff.mp first, List.isEmpty_iff.mp second]
      exact ⟨rfl, fun _ member => (List.not_mem_nil member).elim⟩
    · cases found
      cases refound
      have read := Line.ofLine_of_tree read
      have reread := Line.ofLine_of_tree reread
      rw [keys, squareMade] at read reread
      cases read
      cases reread
      refine ⟨rfl, fun exponent member name within => ?_⟩
      cases List.mem_singleton.mp member
      rcases within with _ | ⟨member, _⟩
      cases member
    · cases found
  obtain ⟨outcomes, others, ran, reran, agree⟩ :=
    units_ignore_numbers compiled recompiled same exponents
  exact ⟨_, _, outcomes, others, ran, reran, agree 1⟩

end Sheet

end UnitSheet
