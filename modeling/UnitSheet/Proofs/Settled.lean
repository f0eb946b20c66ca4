/-
This file says what evaluating a worksheet computes.

The outcomes of a worksheet are settled when every line has the outcome that its own tree has,
evaluated on the outcomes of all lines. An evaluation gets there line by line: after a beginning of
the order, the lines in it are settled for good, because what they refer to is in the beginning
as well (`Progress.step`). Settled outcomes are unique, so any order that has every line after
those it depends on leads to the same ones.
-/

import UnitSheet.Proofs.Evaluation
import UnitSheet.Proofs.Linked

namespace UnitSheet.Sheet

/-- The outcome of a line, given the quantities that names stand for. -/
def Line.outcome (line : Line) (meaning : String → Evaluated (Quantity Float)) :
    Except Defect Outcome :=
  match line.tree with
  | .error error => .ok (.error (.reading error))
  | .ok tree =>
    if line.isBlank then .ok (.ok (Quantity.pure 0)) else outcomeOf (tree.evaluate meaning)

/-- A line that has nothing to evaluate: it is blank, or was refused when it was read. -/
def Line.Idle (line : Line) : Prop :=
  line.isBlank = true ∨ ∃ error, line.tree = .error error

/-- A line has the outcome of its tree. -/
def SettledAt (sheet : Sheet) (outcomes : List Outcome) (index : Nat) : Prop :=
  ∀ line, sheet.lines[index]? = some line → ∃ outcome, outcomes[index]? = some outcome ∧
    line.outcome (sheet.meaning outcomes) = .ok outcome

/-- Every line has the outcome of its tree, and there are no other outcomes. -/
structure Settled (sheet : Sheet) (outcomes : List Outcome) : Prop where
  length : outcomes.length = sheet.lines.length
  settled : ∀ index, sheet.SettledAt outcomes index

variable {catalog : Catalog} {sheet : Sheet} {outcomes others : List Outcome}

/-- There are outcomes of the lines only. -/
theorem Settled.eq_none_iff (settled : sheet.Settled outcomes) {index : Nat} :
    outcomes[index]? = none ↔ sheet.lines[index]? = none := by
  rw [List.getElem?_eq_none_iff, List.getElem?_eq_none_iff, settled.length]

/-! ### The outcome of a line -/

theorem Line.idle_or_tree (line : Line) :
    line.Idle ∨ ∃ tree, line.isBlank = false ∧ line.tree = .ok tree := by
  cases blank : line.isBlank with
  | true => exact .inl (.inl blank)
  | false =>
    cases equal : line.tree with
    | error error => exact .inl (.inr ⟨error, equal⟩)
    | ok tree => exact .inr ⟨tree, rfl, rfl⟩

theorem Line.Idle.isBlank_eq {line : Line} {tree : Node} (idle : line.Idle)
    (equal : line.tree = .ok tree) : line.isBlank = true := by
  refine idle.resolve_right ?_
  rintro ⟨error, refused⟩
  rw [equal] at refused
  cases refused

/-- An idle line keeps the outcome that it has before it is evaluated. -/
theorem Line.Idle.outcome_eq {line : Line} (idle : line.Idle)
    (meaning : String → Evaluated (Quantity Float)) :
    line.outcome meaning = .ok line.unevaluated := by
  unfold Line.outcome Line.unevaluated
  cases equal : line.tree with
  | error error => rfl
  | ok tree => exact if_pos (idle.isBlank_eq equal)

/-- Any other line has the outcome of its tree. -/
theorem Line.outcome_eq_outcomeOf {line : Line} {tree : Node} (some : line.isBlank = false)
    (equal : line.tree = .ok tree) (meaning : String → Evaluated (Quantity Float)) :
    line.outcome meaning = outcomeOf (tree.evaluate meaning) := by
  unfold Line.outcome
  rw [equal, some]
  exact if_neg Bool.false_ne_true

/-! ### What the outcome of a line depends on -/

/-- A name stands for the same quantity as long as the outcome of its line is the same. -/
theorem meaning_congr {name : String} {index : Nat}
    (stands : sheet.names.find? name = some index) (same : outcomes[index]? = others[index]?) :
    sheet.meaning outcomes name = sheet.meaning others name := by
  simp only [meaning, stands, same]

/-- The outcome of a line depends on what the names in its tree stand for. -/
theorem Linked.outcome_eq_of_agree (linked : sheet.Linked catalog) {line : Line}
    (member : line ∈ sheet.lines) {first second : String → Evaluated (Quantity Float)}
    (agree : ∀ name, sheet.Refers line name → first name = second name) :
    line.outcome first = line.outcome second := by
  rcases line.idle_or_tree with idle | ⟨tree, some, equal⟩
  · rw [idle.outcome_eq, idle.outcome_eq]
  · rw [Line.outcome_eq_outcomeOf some equal, Line.outcome_eq_outcomeOf some equal,
      (linked.expression line member some tree equal).evaluate_congr agree]

/-- The outcome of a line depends on the outcomes of the lines it depends on. -/
theorem Linked.outcome_congr (linked : sheet.Linked catalog) {line : Line}
    (member : line ∈ sheet.lines)
    (same : ∀ index ∈ line.dependencies, outcomes[index]? = others[index]?) :
    line.outcome (sheet.meaning outcomes) = line.outcome (sheet.meaning others) := by
  refine linked.outcome_eq_of_agree member ?_
  rintro name ⟨index, depends, stands⟩
  exact meaning_congr stands (same index depends)

/-- A name that a line refers to stands for what the outcome of its line allows. -/
theorem Linked.yields_meaning (linked : sheet.Linked catalog)
    {good : CompoundUnit Float → Prop} {allowed : Failure → Prop} (tame : Tame good allowed)
    (length : outcomes.length = sheet.lines.length) {index : Nat} {name : String}
    (stands : sheet.names.find? name = some index)
    (quantities : ∀ quantity, outcomes[index]? = some (.ok quantity) → good quantity.unit) :
    Evaluated.Yields (Quantity.InUnit good) allowed (sheet.meaning outcomes name) := by
  have inside := linked.inside name index stands
  have line := List.getElem?_eq_getElem inside
  have outcome := List.getElem?_eq_getElem (length ▸ inside : index < outcomes.length)
  rw [outcome] at quantities
  simp only [meaning, stands, line, outcome]
  cases known : outcomes[index] with
  | error error => exact tame.reference _ name rfl
  | ok quantity =>
    show Evaluated.Yields _ _ (if sheet.lines[index].isBlank then _ else _)
    split
    · exact tame.reference _ name rfl
    · exact quantities quantity (congrArg some known)

theorem exists_outcomeOf {good : Quantity Float → Prop} {allowed : Failure → Prop}
    {evaluated : Evaluated (Quantity Float)} (yields : Evaluated.Yields good allowed evaluated) :
    ∃ outcome, outcomeOf evaluated = .ok outcome := by
  match evaluated with
  | .ok quantity => exact ⟨_, rfl⟩
  | .error (.failure failure) => exact ⟨_, rfl⟩

/-- Every line has an outcome. -/
theorem Linked.exists_outcome (linked : sheet.Linked catalog)
    (length : outcomes.length = sheet.lines.length) {line : Line} (member : line ∈ sheet.lines) :
    ∃ outcome, line.outcome (sheet.meaning outcomes) = .ok outcome := by
  rcases line.idle_or_tree with idle | ⟨tree, some, equal⟩
  · exact ⟨line.unevaluated, idle.outcome_eq _⟩
  · rw [Line.outcome_eq_outcomeOf some equal]
    have expression := linked.expression line member some tree equal
    refine exists_outcomeOf
      (expression.yields_evaluate tame_true.toConfined (fun _ _ => trivial) ?_)
    rintro name ⟨index, _, stands⟩
    exact linked.yields_meaning tame_true length stands fun _ _ => trivial

/-! ### One line -/

/-- An idle line is left alone. -/
theorem evaluateLine_idle {index : Nat} {line : Line}
    (found : sheet.lines[index]? = some line) (idle : line.Idle) :
    sheet.evaluateLine outcomes index = .ok outcomes := by
  unfold evaluateLine
  rw [found]
  split
  · rename_i same _
    cases same
    split
    · rename_i tree equal
      exact if_pos (idle.isBlank_eq equal)
    · rfl
  · rfl

/-- A line that has not been evaluated is given its outcome. -/
theorem evaluateLine_eq {index : Nat} {line : Line} {outcome : Outcome}
    (found : sheet.lines[index]? = some line) (pending : outcomes[index]? = some line.unevaluated)
    (equal : line.outcome (sheet.meaning outcomes) = .ok outcome) :
    sheet.evaluateLine outcomes index = .ok (outcomes.set index outcome) := by
  rcases line.idle_or_tree with idle | ⟨tree, some, read⟩
  · rw [idle.outcome_eq] at equal
    cases equal
    obtain ⟨inside, same⟩ := List.getElem?_eq_some_iff.mp pending
    rw [evaluateLine_idle found idle, ← same, List.set_getElem_self inside]
  · rw [Line.outcome_eq_outcomeOf some read] at equal
    simp only [Line.unevaluated, read] at pending
    simp only [evaluateLine, found, pending, read, some, equal]
    rfl

/-! ### All lines -/

/-- What holds after the lines at the beginning of the order have been evaluated. -/
structure Progress (sheet : Sheet) (done : List Nat) (outcomes : List Outcome) : Prop where
  length : outcomes.length = sheet.lines.length
  settled : ∀ index ∈ done, sheet.SettledAt outcomes index
  pending : ∀ index line, index ∉ done → sheet.lines[index]? = some line →
    outcomes[index]? = some line.unevaluated

theorem progress_start (sheet : Sheet) : sheet.Progress [] sheet.unevaluated where
  length := List.length_map _
  settled := fun _ member => absurd member List.not_mem_nil
  pending := by
    intro index line _ found
    rw [unevaluated, List.getElem?_map, found]
    rfl

/-- Evaluating a line settles it, and keeps those settled that do not depend on it. -/
theorem Progress.step (linked : sheet.Linked catalog) {done : List Nat} {index : Nat}
    (progress : sheet.Progress done outcomes) (inside : index < sheet.lines.length)
    (undone : index ∉ done) (closed : ∀ other ∈ done, index ∉ sheet.dependencies.of other)
    (ready : index ∉ sheet.dependencies.of index) :
    ∃ next, sheet.evaluateLine outcomes index = .ok next ∧
      sheet.Progress (done ++ [index]) next := by
  obtain ⟨line, found⟩ : ∃ line, sheet.lines[index]? = some line :=
    ⟨_, List.getElem?_eq_getElem inside⟩
  have member := List.mem_of_getElem? found
  obtain ⟨outcome, equal⟩ := linked.exists_outcome progress.length member
  refine ⟨_, evaluateLine_eq found (progress.pending index line undone found) equal, ?_⟩
  -- A line that does not depend on this one has the same outcome as before.
  have unchanged : ∀ {other : Nat} {it : Line}, sheet.lines[other]? = some it →
      index ∉ sheet.dependencies.of other →
      it.outcome (sheet.meaning (outcomes.set index outcome)) =
        it.outcome (sheet.meaning outcomes) := by
    intro other it exists_it independent
    refine linked.outcome_congr (List.mem_of_getElem? exists_it) fun dependency depends => ?_
    refine List.getElem?_set_ne fun same => independent ?_
    rw [of_dependencies exists_it, same]
    exact depends
  refine ⟨(List.length_set).trans progress.length, ?_, ?_⟩
  · intro other among it exists_it
    rcases List.mem_append.mp among with earlier | last
    · have differs : index ≠ other := fun same => undone (same ▸ earlier)
      rw [List.getElem?_set_ne differs, unchanged exists_it (closed other earlier)]
      exact progress.settled other earlier it exists_it
    · cases List.mem_singleton.mp last
      cases found.symm.trans exists_it
      refine ⟨outcome, ?_, (unchanged found ready).trans equal⟩
      exact List.getElem?_set_self (progress.length ▸ inside)
  · intro other it absent exists_it
    have differs : index ≠ other := fun same =>
      absent (List.mem_append_right _ (List.mem_singleton.mpr same.symm))
    rw [List.getElem?_set_ne differs]
    exact progress.pending other it (fun earlier => absent (List.mem_append_left _ earlier))
      exists_it

/-- Evaluating the rest of an order from a beginning of it settles all lines in it. -/
theorem Progress.run (linked : sheet.Linked catalog) {order : List Nat}
    (isOrder : sheet.dependencies.IsOrder order) {done rest : List Nat}
    (split : order = done ++ rest) (progress : sheet.Progress done outcomes) :
    ∃ final, rest.foldlM sheet.evaluateLine outcomes = .ok final ∧ sheet.Progress order final := by
  induction rest generalizing done outcomes with
  | nil =>
    rw [List.append_nil] at split
    exact ⟨outcomes, rfl, split ▸ progress⟩
  | cons index rest inductionHypothesis =>
    have nodup : order.Nodup := isOrder.perm.nodup_iff.mpr List.nodup_range
    rw [split] at nodup
    have undone : index ∉ done := fun earlier =>
      (List.nodup_append.mp nodup).2.2 index earlier index List.mem_cons_self rfl
    have inside : index < sheet.lines.length := by
      rw [← length_dependencies, ← List.mem_range, ← isOrder.perm.mem_iff, split]
      exact List.mem_append_right _ List.mem_cons_self
    have ready : index ∉ sheet.dependencies.of index := fun depends =>
      undone (isOrder.after done index rest split index depends)
    have closed : ∀ other ∈ done, index ∉ sheet.dependencies.of other := by
      intro other earlier depends
      obtain ⟨before, after, rfl⟩ := List.append_of_mem earlier
      rw [List.append_assoc, List.cons_append] at split
      exact undone (List.mem_append_left _ (isOrder.after before other _ split index depends))
    obtain ⟨next, evaluated, progress⟩ := progress.step linked inside undone closed ready
    rw [← List.singleton_append, ← List.append_assoc] at split
    obtain ⟨final, run, settled⟩ := inductionHypothesis split progress
    refine ⟨final, ?_, settled⟩
    rw [List.foldlM_cons, evaluated]
    exact run

/-- Evaluating the lines in any order that has them after those they depend on settles them. -/
theorem Linked.exists_settled (linked : sheet.Linked catalog) {order : List Nat}
    (isOrder : sheet.dependencies.IsOrder order) :
    ∃ final, order.foldlM sheet.evaluateLine sheet.unevaluated = .ok final ∧
      sheet.Settled final := by
  obtain ⟨final, run, progress⟩ :=
    (progress_start sheet).run linked isOrder (List.nil_append order).symm
  refine ⟨final, run, progress.length, fun index line found => ?_⟩
  refine progress.settled index ?_ line found
  rw [isOrder.perm.mem_iff, List.mem_range, length_dependencies]
  exact (List.getElem?_eq_some_iff.mp found).1

/-- A line that is settled has the same outcome when it is evaluated again. -/
theorem Settled.evaluateLine_eq (settled : sheet.Settled outcomes) (index : Nat) :
    sheet.evaluateLine outcomes index = .ok outcomes := by
  cases found : sheet.lines[index]? with
  | none => simp only [evaluateLine, found]
  | some line =>
    rcases line.idle_or_tree with idle | ⟨tree, some, equal⟩
    · exact evaluateLine_idle found idle
    · obtain ⟨outcome, has, given⟩ := settled.settled index line found
      rw [Line.outcome_eq_outcomeOf some equal] at given
      obtain ⟨inside, same⟩ := List.getElem?_eq_some_iff.mp has
      cases outcome with
      | error error => simp only [evaluateLine, found, has]
      | ok quantity =>
        simp only [evaluateLine, found, has, equal, some, given]
        show Except.ok (outcomes.set index (.ok quantity)) = _
        rw [← same, List.set_getElem_self inside]

/-- Evaluating settled outcomes again changes nothing. -/
theorem Settled.evaluate_eq (settled : sheet.Settled outcomes) :
    sheet.evaluate outcomes = .ok outcomes := by
  unfold evaluate
  induction sheet.order with
  | nil => rfl
  | cons index rest inductionHypothesis =>
    rw [List.foldlM_cons, settled.evaluateLine_eq]
    exact inductionHypothesis

/-- What holds of a line when it holds of the lines it depends on holds of all lines. -/
theorem Linked.induction (linked : sheet.Linked catalog) {motive : Nat → Prop}
    (step : ∀ (index : Nat) (line : Line), sheet.lines[index]? = some line →
      (∀ other ∈ line.dependencies, motive other) → motive index)
    {index : Nat} (inside : index < sheet.lines.length) : motive index := by
  have atPlace : ∀ place index, sheet.order.idxOf index = place → index < sheet.lines.length →
      motive index := by
    intro place
    -- The lines that a line depends on have earlier places in the order.
    induction place using Nat.strongRecOn with
    | ind place inductionHypothesis =>
      intro index atPlace inside
      have found := List.getElem?_eq_getElem inside
      refine step index _ found fun other depends => ?_
      rw [← of_dependencies found] at depends
      rw [← length_dependencies] at inside
      have earlier := linked.ordered.idxOf_lt inside depends
      have known := linked.ordered.lt_length inside depends
      rw [atPlace] at earlier
      rw [length_dependencies] at known
      exact inductionHypothesis _ earlier other rfl known
  exact atPlace _ index rfl inside

/-- There is one way to settle the outcomes of a worksheet. -/
theorem Settled.unique (linked : sheet.Linked catalog) (settled : sheet.Settled outcomes)
    (other : sheet.Settled others) : outcomes = others := by
  refine List.ext_getElem? fun index => ?_
  by_cases inside : index < sheet.lines.length
  · refine linked.induction (motive := fun index => outcomes[index]? = others[index]?)
      (fun index line found agree => ?_) inside
    obtain ⟨first, known, equal⟩ := settled.settled index line found
    obtain ⟨second, otherKnown, otherEqual⟩ := other.settled index line found
    rw [linked.outcome_congr (List.mem_of_getElem? found) agree, otherEqual] at equal
    cases equal
    rw [known, otherKnown]
  · have outside := List.getElem?_eq_none (Nat.le_of_not_lt inside)
    rw [settled.eq_none_iff.mpr outside, other.eq_none_iff.mpr outside]

/-! ### Compiled worksheets -/

/-- A compiled worksheet is evaluated to outcomes in which every line that can be evaluated has
what its tree gives on all the outcomes, and the other lines are left alone. Every order that has
the lines after those they depend on leads to the same outcomes. -/
theorem evaluate_settles {source : String}
    (compiled : compile catalog source = .ok sheet) :
    ∃ outcomes, sheet.evaluate sheet.unevaluated = .ok outcomes ∧
      outcomes.length = sheet.lines.length ∧
      (∀ (index : Nat) (line : Line) (tree : Node), sheet.lines[index]? = some line →
        line.isBlank = false → line.tree = .ok tree → ∃ outcome, outcomes[index]? = some outcome ∧
          outcomeOf (tree.evaluate (sheet.meaning outcomes)) = .ok outcome) ∧
      (∀ (index : Nat) (line : Line), sheet.lines[index]? = some line →
        (line.isBlank = true ∨ ∃ error, line.tree = .error error) →
          outcomes[index]? = some line.unevaluated) ∧
      ∀ order, sheet.dependencies.IsOrder order →
        evaluate { sheet with order := order } sheet.unevaluated = .ok outcomes := by
  have linked := linked_of_compile compiled
  obtain ⟨outcomes, run, settled⟩ := linked.exists_settled linked.ordered
  refine ⟨outcomes, run, settled.length, ?_, ?_, ?_⟩
  · intro index line tree found some equal
    obtain ⟨outcome, known, given⟩ := settled.settled index line found
    rw [Line.outcome_eq_outcomeOf some equal] at given
    exact ⟨outcome, known, given⟩
  · intro index line found idle
    obtain ⟨outcome, known, given⟩ := settled.settled index line found
    rw [Line.Idle.outcome_eq idle] at given
    cases given
    exact known
  · intro order isOrder
    obtain ⟨others, otherRun, otherSettled⟩ := linked.exists_settled isOrder
    rw [settled.unique linked otherSettled]
    exact otherRun

/-- Two lines that do not mention each other can be evaluated in either order. -/
theorem evaluate_eq_of_swapped : ∃ sheet outcomes,
    compile Catalog.builtin "x: 1\ny: 2\nx" = .ok sheet ∧
    sheet.evaluate sheet.unevaluated = .ok outcomes ∧
    evaluate { sheet with order := [1, 0, 2] } sheet.unevaluated = .ok outcomes := by
  have dependencies : (ofDrafts Catalog.builtin
      ((Text.sheetLines "x: 1\ny: 2\nx").map Draft.ofText)).dependencies = [[], [], [0]] := by
    rw [dependencies_ofDrafts]
    cbv
  have acyclic : Dependencies.isCyclic [[], [], [0]] = false := by cbv
  have compiled : compile Catalog.builtin "x: 1\ny: 2\nx" = .ok _ :=
    compile_eq_ok_iff.mpr ⟨rfl, dependencies ▸ acyclic⟩
  obtain ⟨outcomes, run, _, _, _, orders⟩ := evaluate_settles compiled
  refine ⟨_, outcomes, compiled, run, orders [1, 0, 2] ?_⟩
  rw [dependencies]
  refine ⟨by decide, fun before line rest split other depends => ?_⟩
  rcases line with _ | _ | _ | line
  · cases depends
  · cases depends
  · cases List.mem_singleton.mp depends
    rcases before with _ | ⟨first, _ | ⟨second, before⟩⟩
    · cases split
    · cases split
    · obtain ⟨_, equal, _⟩ := List.cons_eq_cons.mp split |>.imp_right List.cons_eq_cons.mp
      exact equal ▸ List.mem_cons_of_mem _ List.mem_cons_self
  · cases depends

end UnitSheet.Sheet
