/-
This file says that every document has outcomes unless it is refused for a cycle.

Nothing that can go wrong in a line leaves it: a line ends with an error, or is blank, or has the
value of its tree, and it is in one of these states only. No tree is met that evaluation has no case
for, no unit is missing for a name, and no power of a negative scale is ever taken, which would
have no real value.
-/

import UnitSheet.Proofs.Rates
import UnitSheet.Proofs.Settled

namespace UnitSheet

/-! ### What outcomes can be -/

/-- A quantity in a good unit, an allowed failure, or an error that was there before. -/
def Outcome.Keeps (good : CompoundUnit Float → Prop) (allowed : Failure → Prop) : Outcome → Prop
  | .ok quantity => good quantity.unit
  | .error (.evaluation failure) => allowed failure
  | .error (.reading _) => True

namespace Sheet

variable {catalog : Catalog} {sheet : Sheet} {outcomes : List Outcome}
  {good : CompoundUnit Float → Prop} {allowed : Failure → Prop}

theorem eq_ok_of_outcomeOf {evaluated : Evaluated (Quantity Float)} {quantity : Quantity Float}
    (equal : outcomeOf evaluated = .ok (.ok quantity)) : evaluated = .ok quantity := by
  match evaluated with
  | .ok value =>
    cases equal
    rfl
  | .error (.failure _) => cases equal
  | .error (.defect _) => cases equal

/-- The value of a line that is not blank is that of its tree. -/
theorem Line.exists_tree_of_outcome {line : Line} {quantity : Quantity Float}
    {meaning : String → Evaluated (Quantity Float)} (some : line.isBlank = false)
    (equal : line.outcome meaning = .ok (.ok quantity)) :
    ∃ tree, line.tree = .ok tree ∧ tree.evaluate meaning = .ok quantity := by
  rcases line.idle_or_tree with idle | ⟨tree, _, read⟩
  · -- A line that is not blank is idle only if it was refused, and then it has no value.
    obtain ⟨error, refused⟩ := idle.resolve_left (by rw [some]; exact Bool.false_ne_true)
    rw [idle.outcome_eq, Line.unevaluated, refused] at equal
    cases equal
  · rw [Line.outcome_eq_outcomeOf some read] at equal
    exact ⟨tree, read, eq_ok_of_outcomeOf equal⟩

theorem eq_error_of_outcomeOf {evaluated : Evaluated (Quantity Float)} {failure : Failure}
    (equal : outcomeOf evaluated = .ok (.error (.evaluation failure))) :
    evaluated = .error (.failure failure) := by
  match evaluated with
  | .ok _ => cases equal
  | .error (.failure _) =>
    cases equal
    rfl
  | .error (.defect _) => cases equal

theorem keeps_outcomeOf {evaluated : Evaluated (Quantity Float)} {outcome : Outcome}
    (yields : Evaluated.Yields (Quantity.InUnit good) allowed evaluated)
    (equal : outcomeOf evaluated = .ok outcome) : outcome.Keeps good allowed := by
  match evaluated with
  | .ok quantity =>
    cases equal
    exact yields
  | .error (.failure failure) =>
    cases equal
    exact yields

theorem keeps_unevaluated (tame : Tame good allowed) (line : Line) :
    line.unevaluated.Keeps good allowed := by
  unfold Line.unevaluated
  split
  · trivial
  · exact tame.empty

/-- Settled outcomes keep to the units and failures that the units of the catalogue keep to. -/
theorem Settled.keeps (linked : sheet.Linked catalog) (tame : Tame good allowed)
    (units : ∀ unit, catalog.HasUnit unit → good unit) (settled : sheet.Settled outcomes)
    {index : Nat} (inside : index < sheet.lines.length) :
    ∀ outcome, outcomes[index]? = some outcome → outcome.Keeps good allowed := by
  refine linked.induction (motive := fun index => ∀ outcome, outcomes[index]? = some outcome →
    outcome.Keeps good allowed) (fun index line found known outcome has => ?_) inside
  obtain ⟨_, same, equal⟩ := settled.settled index line found
  cases has.symm.trans same
  rcases line.idle_or_tree with idle | ⟨tree, some, read⟩
  · rw [idle.outcome_eq] at equal
    cases equal
    exact keeps_unevaluated tame line
  · rw [Line.outcome_eq_outcomeOf some read] at equal
    have expression := linked.expression line (List.mem_of_getElem? found) some tree read
    refine keeps_outcomeOf (expression.yields_evaluate tame.toConfined units ?_) equal
    rintro name ⟨other, depends, stands⟩
    exact linked.yields_meaning tame settled.length stands fun quantity atOther =>
      known other depends _ atOther

/-! ### The states of lines -/

/-- The states that a line can be in after an evaluation. -/
inductive Line.State where
  | failed
  | blank
  | evaluated

/-- A line has an error; or it has no expression and no error; or it has an expression with a
tree, no error, and the value of the tree. -/
def InState (sheet : Sheet) (outcomes : List Outcome) (index : Nat) : Line.State → Prop
  | .failed => ∃ error, outcomes[index]? = some (.error error)
  | .blank => ∃ line quantity, sheet.lines[index]? = some line ∧ line.tokens = [] ∧
      outcomes[index]? = some (.ok quantity)
  | .evaluated => ∃ line tree quantity, sheet.lines[index]? = some line ∧ line.tokens ≠ [] ∧
      line.tree = .ok tree ∧ tree.evaluate (sheet.meaning outcomes) = .ok quantity ∧
      outcomes[index]? = some (.ok quantity)

/-- The only state that a line with an outcome can be in. -/
def stateOf (line : Option Line) : Option Outcome → Line.State
  | some (.ok _) => if line.any Line.isBlank then .blank else .evaluated
  | _ => .failed

theorem InState.eq_stateOf {index : Nat} {state : Line.State}
    (inState : sheet.InState outcomes index state) :
    state = stateOf sheet.lines[index]? outcomes[index]? := by
  cases state with
  | failed =>
    obtain ⟨error, known⟩ := inState
    rw [known]
    rfl
  | blank =>
    obtain ⟨line, quantity, found, none, known⟩ := inState
    rw [known, found, stateOf, Option.any_some, Line.isBlank, none]
    rfl
  | evaluated =>
    obtain ⟨line, tree, quantity, found, some, _, _, known⟩ := inState
    rw [known, found, stateOf, Option.any_some, Line.isBlank, List.isEmpty_eq_false_iff.mpr some]
    rfl

/-- Every line of settled outcomes is in some state. -/
theorem Settled.exists_state (settled : sheet.Settled outcomes) {index : Nat}
    (inside : index < sheet.lines.length) : ∃ state, sheet.InState outcomes index state := by
  have found := List.getElem?_eq_getElem inside
  generalize sheet.lines[index] = line at found
  obtain ⟨outcome, known, equal⟩ := settled.settled index line found
  cases outcome with
  | error error => exact ⟨.failed, error, known⟩
  | ok quantity =>
    cases blank : line.isBlank with
    | true => exact ⟨.blank, line, quantity, found, List.isEmpty_iff.mp blank, known⟩
    | false =>
      obtain ⟨tree, read, evaluated⟩ := Line.exists_tree_of_outcome blank equal
      exact ⟨.evaluated, line, tree, quantity, found, List.isEmpty_eq_false_iff.mp blank, read,
        evaluated, known⟩

/-! ### Every document -/

/-- Running a document is compiling it and evaluating its worksheet. -/
theorem run_eq_ok_iff {source : String} :
    run catalog source = .ok (sheet, outcomes) ↔
      compile catalog source = .ok sheet ∧ sheet.evaluate sheet.unevaluated = .ok outcomes := by
  rw [run, bind_eq_ok]
  constructor
  · rintro ⟨_, compiled, rest⟩
    obtain ⟨_, evaluated, same⟩ := bind_eq_ok.mp rest
    cases same
    exact ⟨mapError_eq_ok.mp compiled, mapError_eq_ok.mp evaluated⟩
  · rintro ⟨compiled, evaluated⟩
    refine ⟨sheet, mapError_eq_ok.mpr compiled, ?_⟩
    exact bind_eq_ok.mpr ⟨outcomes, mapError_eq_ok.mpr evaluated, rfl⟩

/-- A document that compiles has settled outcomes. -/
theorem exists_run_of_compile {source : String} (compiled : compile catalog source = .ok sheet) :
    ∃ outcomes, run catalog source = .ok (sheet, outcomes) ∧ sheet.Settled outcomes := by
  have linked := linked_of_compile compiled
  obtain ⟨outcomes, evaluated, settled⟩ := linked.exists_settled linked.ordered
  exact ⟨outcomes, run_eq_ok_iff.mpr ⟨compiled, evaluated⟩, settled⟩

/-- A document of which no line leads back to itself has settled outcomes. -/
theorem exists_run_of_acyclic (catalog : Catalog) {source : String}
    (acyclic :
      (Draft.dependencies ((Text.sheetLines source).map Draft.ofText)).isCyclic = false) :
    ∃ sheet outcomes, run catalog source = .ok (sheet, outcomes) ∧ sheet.Settled outcomes := by
  have compiled := compile_eq catalog source
  rw [if_neg (Bool.eq_false_iff.mp acyclic)] at compiled
  exact ⟨_, exists_run_of_compile compiled⟩

/-- The outcomes of a document that runs are settled. -/
theorem settled_of_run {source : String} (ran : run catalog source = .ok (sheet, outcomes)) :
    sheet.Settled outcomes := by
  obtain ⟨_, same, settled⟩ := exists_run_of_compile (run_eq_ok_iff.mp ran).1
  rw [ran] at same
  cases same
  exact settled

/-- Whatever exchange rates have been set and whatever the document is, it is refused for a cycle or
has outcomes, and there is no defect. Every line of it is then in exactly one of the three states.
On the way every text is a single line, every name of a unit finds its unit, and no line fails
for the power of a negative scale. -/
theorem run_total (history : catalog.Adjusted) (source : String) :
    (∀ text ∈ Text.sheetLines source, '\n' ∉ text) ∧
    (∀ name id, catalog.resolve? name = some id → ∃ unit, catalog.get? id = some unit) ∧
    (run catalog source = .error (.cyclic ⟨⟩) ∨ ∃ sheet outcomes,
      run catalog source = .ok (sheet, outcomes) ∧ outcomes.length = sheet.lines.length ∧
      (∀ index < sheet.lines.length, ∃! state, sheet.InState outcomes index state) ∧
      (∀ (index : Nat) (failure : Failure), outcomes[index]? = some (.error (.evaluation failure)) →
        failure ≠ .conversion (.arithmetic .negativeToFractionalPower))) := by
  refine ⟨fun _ => Text.not_mem_of_mem_sheetLines, fun _ _ => history.exists_get?, ?_⟩
  cases compiled : compile catalog source with
  | error cyclic =>
    rw [run, compiled]
    exact .inl rfl
  | ok sheet =>
    obtain ⟨outcomes, ran, settled⟩ := exists_run_of_compile compiled
    refine .inr ⟨sheet, outcomes, ran, settled.length, fun index inside => ?_, ?_⟩
    · obtain ⟨state, inState⟩ := settled.exists_state inside
      exact ⟨state, inState, fun other inOther => by rw [inOther.eq_stateOf, inState.eq_stateOf]⟩
    · intro index failure known
      have inside : index < sheet.lines.length :=
        settled.length ▸ (List.getElem?_eq_some_iff.mp known).1
      have scaled : ∀ unit, catalog.HasUnit unit → unit.Over NamedUnit.Scaled :=
        fun _ => Catalog.over_of_hasUnit history.scaled_unitOfName
      exact settled.keeps (linked_of_compile compiled) tame_scales scaled inside _ known

/-- After a rate is set, a line that divides by zero is in one state like every other. -/
theorem existsUnique_state_of_division : ∃ adjusted sheet outcomes,
    Catalog.builtin.setRates [("usd", 2)] = .ok adjusted ∧
    run adjusted "x: 1\nx / 0" = .ok (sheet, outcomes) ∧
    ∃! state, sheet.InState outcomes 1 state := by
  have resolved : Catalog.builtin.resolve? "usd" = some "usd" := by
    show (Table.ofList (Catalog.aliasEntries Catalog.builtinUnits)).find? "usd" = _
    rw [Table.find?_ofList]
    decide +kernel
  have named : Catalog.builtin.rateId "usd" = "usd" := by
    rw [Catalog.rateId, resolved]
    decide
  have currency : Catalog.builtin.isCurrency "usd" = true := by decide +kernel
  obtain ⟨adjusted, accepted⟩ :
      ∃ adjusted, Catalog.builtin.setRates [("usd", 2)] = .ok adjusted := by
    rw [Catalog.setRates, List.mapM_cons, Catalog.rateFactor]
    simp only [named, currency]
    exact ⟨_, rfl⟩
  have acyclic : (ofDrafts adjusted
      ((Text.sheetLines "x: 1\nx / 0").map Draft.ofText)).dependencies.isCyclic = false := by
    rw [dependencies_ofDrafts]
    cbv
  obtain ⟨outcomes, ran, _⟩ := exists_run_of_compile (compile_eq_ok_iff.mpr ⟨rfl, acyclic⟩)
  have total := run_total (.setRates _ .initial accepted) "x: 1\nx / 0"
  rw [ran] at total
  obtain ⟨_, _, cyclic | ⟨sheet, outcomes, same, _, states, _⟩⟩ := total
  · cases cyclic
  · cases same
    have two : (Text.sheetLines "x: 1\nx / 0").length = 2 := by cbv
    refine ⟨adjusted, _, outcomes, accepted, ran, states 1 ?_⟩
    rw [ofDrafts, List.length_map, List.length_map, two]
    exact Nat.one_lt_two

end Sheet

end UnitSheet
