/-
This file compares the traversal with a recursive visit.

The visit marks a line, visits the lines it depends on, and then emits it. The traversal has no
calls to return from: of every line that is entered and not finished it keeps the dependencies
that are still to be followed. Those are what is left of one visit, so following them
ends where visiting them ends (`run_follow`), and the lines are finished in the order in which
the visit emits them.
-/

import UnitSheet.Proofs.Traversal

namespace UnitSheet

namespace Dependencies

variable {dependencies : Dependencies} {marked later lines rest : List Nat} {line : Nat}

/-! ### Lines that are not marked -/

/-- Those of the given lines that are not marked. -/
def unmarked (marked lines : List Nat) : List Nat :=
  lines.filter fun line => line ∉ marked

theorem unmarked_cons_of_mem (entered : line ∈ marked) (rest : List Nat) :
    unmarked marked (line :: rest) = unmarked marked rest :=
  List.filter_cons_of_neg (by simpa using entered)

theorem unmarked_cons_of_notMem (fresh : line ∉ marked) (rest : List Nat) :
    unmarked marked (line :: rest) = line :: unmarked marked rest :=
  List.filter_cons_of_pos (by simpa using fresh)

/-- What is left later is left of what was left before. -/
theorem unmarked_unmarked (kept : marked ⊆ later) (lines : List Nat) :
    unmarked later (unmarked marked lines) = unmarked later lines := by
  rw [unmarked, unmarked, List.filter_filter]
  refine List.filter_congr fun line _ => ?_
  have before : line ∉ later → line ∉ marked := fun fresh entered => fresh (kept entered)
  simpa using before

/-- When the first line that was left is marked, those after it are left. -/
theorem unmarked_of_marked_first (kept : marked ⊆ later) (entered : line ∈ later)
    (first : unmarked marked lines = line :: unmarked marked rest) :
    unmarked later lines = unmarked later rest :=
  calc unmarked later lines = unmarked later (unmarked marked lines) :=
      (unmarked_unmarked kept lines).symm
    _ = unmarked later (line :: unmarked marked rest) := by rw [first]
    _ = unmarked later (unmarked marked rest) := unmarked_cons_of_mem entered _
    _ = unmarked later rest := unmarked_unmarked kept rest

/-- The lines that are left to be visited. -/
def left (dependencies : Dependencies) (marked : List Nat) : List Nat :=
  unmarked marked (List.range dependencies.length)

theorem mem_left :
    line ∈ dependencies.left marked ↔ line < dependencies.length ∧ line ∉ marked := by
  simp [left, unmarked]

/-- Marking a line takes it away from those that are left. -/
theorem erase_left (marked : List Nat) (line : Nat) :
    (dependencies.left marked).erase line = dependencies.left (line :: marked) := by
  have distinct : (dependencies.left marked).Nodup := List.nodup_range.filter _
  rw [List.Nodup.erase_eq_filter distinct, left, unmarked, List.filter_filter]
  refine List.filter_congr fun other _ => ?_
  simp [bne, Bool.beq_eq_decide_eq]

theorem length_left_le (kept : marked ⊆ later) :
    (dependencies.left later).length ≤ (dependencies.left marked).length := by
  rw [left, ← unmarked_unmarked kept]
  exact List.length_filter_le _ _

/-! ### The recursive visit -/

/-- Marking one more line leaves fewer lines, unless the line is not there; then it depends on
none. -/
theorem visit_decreases (fresh : line ∉ marked) (rest : List Nat) :
    Prod.Lex (· < ·) (· < ·)
      ((dependencies.left (line :: marked)).length, (dependencies.of line).length)
      ((dependencies.left marked).length, (line :: rest).length) := by
  by_cases inside : line < dependencies.length
  · have among : line ∈ dependencies.left marked := mem_left.mpr ⟨inside, fresh⟩
    have positive : 0 < (dependencies.left marked).length := List.length_pos_of_mem among
    refine Prod.Lex.left _ _ ?_
    rw [← erase_left, List.length_erase_of_mem among]
    omega
  · rw [of_eq_nil (Nat.le_of_not_lt inside)]
    exact Prod.Lex.right' _ (length_left_le (List.subset_cons_self _ _)) (Nat.zero_lt_succ _)

/-- The lines that are marked after a visit, those marked before it among them, and the lines that
it emits, in this order. -/
structure Visited (before : List Nat) where
  marked : List Nat
  emitted : List Nat
  kept : before ⊆ marked

/-- Visits lines in turn, depth first. A line that is not marked is marked, then the lines that it
depends on are visited in turn, and then it is emitted. A line that is marked is passed over. -/
def visitAll (dependencies : Dependencies) (marked : List Nat) : List Nat → Visited marked
  | [] => ⟨marked, [], List.Subset.refl _⟩
  | line :: rest =>
    if line ∈ marked then visitAll dependencies marked rest
    else
      let inner := visitAll dependencies (line :: marked) (dependencies.of line)
      have kept := List.Subset.trans (List.subset_cons_self _ _) inner.kept
      let after := visitAll dependencies inner.marked rest
      ⟨after.marked, inner.emitted ++ line :: after.emitted, List.Subset.trans kept after.kept⟩
termination_by lines => ((dependencies.left marked).length, lines.length)
decreasing_by
  · exact Prod.Lex.right _ (Nat.lt_succ_self _)
  · exact visit_decreases (by assumption) rest
  · exact Prod.Lex.right' _ (length_left_le kept) (Nat.lt_succ_self _)

/-- The lines in the order in which a visit of all of them, from the first to the last, emits
them. -/
def postorder (dependencies : Dependencies) : List Nat :=
  (dependencies.visitAll [] (List.range dependencies.length)).emitted

theorem visitAll_cons_of_mem (entered : line ∈ marked) (rest : List Nat) :
    dependencies.visitAll marked (line :: rest) = dependencies.visitAll marked rest := by
  rw [visitAll, if_pos entered]

section

variable (dependencies : Dependencies) (fresh : line ∉ marked) (rest : List Nat)

include fresh

theorem marked_visitAll_cons :
    let inner := dependencies.visitAll (line :: marked) (dependencies.of line)
    (dependencies.visitAll marked (line :: rest)).marked =
      (dependencies.visitAll inner.marked rest).marked := by
  rw [visitAll, if_neg fresh]

/-- What a visit emits, the last line first and in front of what was emitted before. -/
theorem reverse_emitted_visitAll_cons (earlier : List Nat) :
    let inner := dependencies.visitAll (line :: marked) (dependencies.of line)
    (dependencies.visitAll marked (line :: rest)).emitted.reverse ++ earlier =
      (dependencies.visitAll inner.marked rest).emitted.reverse ++
        line :: (inner.emitted.reverse ++ earlier) := by
  rw [visitAll, if_neg fresh]
  simp

end

end Dependencies

namespace Traversal

open Dependencies

variable {dependencies : Dependencies}

/-! ### The traversal follows the visit -/

/-- A traversal runs on from its next state. -/
theorem run_of_step {traversal next : Traversal}
    (stepped : traversal.step? dependencies = some next) :
    traversal.run dependencies = next.run dependencies := by
  rw [run, stepped]

/-- With nothing on the path the first line that is left is entered. -/
theorem step?_idle {unseen rest finished : List Nat} {line : Nat}
    (first : unseen = line :: rest) :
    step? dependencies ⟨unseen, [], finished⟩ =
      some ⟨unseen.erase line, [⟨line, dependencies.of line⟩], finished⟩ := by
  subst first
  rfl

/-- Following the dependencies that are left of the innermost line, and then finishing it, ends
where visiting them ends. -/
theorem run_follow (valid : dependencies.Valid) (marked lines : List Nat)
    (inside : ∀ line ∈ lines, line < dependencies.length) (owner : Nat) (outer : List Visit)
    (finished : List Nat) :
    run dependencies ⟨dependencies.left marked, ⟨owner, lines⟩ :: outer, finished⟩ =
      run dependencies ⟨dependencies.left (dependencies.visitAll marked lines).marked, outer,
        owner :: ((dependencies.visitAll marked lines).emitted.reverse ++ finished)⟩ := by
  induction marked, lines using visitAll.induct dependencies generalizing owner outer finished with
  | case1 marked =>
    rw [visitAll]
    exact run_of_step rfl
  | case2 marked line rest entered inductionHypothesis =>
    obtain ⟨_, insideRest⟩ := List.forall_mem_cons.mp inside
    have passed : ¬ (dependencies.left marked).contains line :=
      fun known => (mem_left.mp (List.contains_iff_mem.mp known)).2 entered
    rw [visitAll_cons_of_mem entered,
      run_of_step ((step?_follow owner line rest).trans (if_neg passed))]
    exact inductionHypothesis insideRest owner outer finished
  | case3 marked line rest fresh inner kept innerHypothesis restHypothesis =>
    obtain ⟨insideLine, insideRest⟩ := List.forall_mem_cons.mp inside
    have among : (dependencies.left marked).contains line :=
      List.contains_iff_mem.mpr (mem_left.mpr ⟨insideLine, fresh⟩)
    rw [run_of_step ((step?_follow owner line rest).trans (if_pos among)), erase_left]
    -- The visit of the line itself comes first; what is left of this one waits on the path.
    rw [innerHypothesis (valid line) line (⟨owner, rest⟩ :: outer) finished,
      restHypothesis insideRest owner outer (line :: (inner.emitted.reverse ++ finished)),
      marked_visitAll_cons dependencies fresh, reverse_emitted_visitAll_cons dependencies fresh]

/-- With nothing on the path the traversal finishes what is left in the order of a visit, of any
lines that have those that are left in the same order. -/
theorem finished_run (valid : dependencies.Valid) (lines marked finished : List Nat)
    (remaining : dependencies.left marked = unmarked marked lines) :
    (run dependencies ⟨dependencies.left marked, [], finished⟩).finished =
      (dependencies.visitAll marked lines).emitted.reverse ++ finished := by
  induction lines generalizing marked finished with
  | nil =>
    rw [remaining, visitAll, run]
    rfl
  | cons line rest inductionHypothesis =>
    by_cases entered : line ∈ marked
    · rw [visitAll_cons_of_mem entered]
      exact inductionHypothesis marked finished
        (remaining.trans (unmarked_cons_of_mem entered rest))
    · have first : dependencies.left marked = line :: unmarked marked rest :=
        remaining.trans (unmarked_cons_of_notMem entered rest)
      have kept := (dependencies.visitAll (line :: marked) (dependencies.of line)).kept
      have later := unmarked_of_marked_first (List.Subset.trans (List.subset_cons_self _ _) kept)
        (kept List.mem_cons_self) first
      rw [run_of_step (step?_idle first), erase_left,
        run_follow valid (line :: marked) (dependencies.of line) (valid line) line [] finished,
        inductionHypothesis _ _ later, reverse_emitted_visitAll_cons dependencies entered]

end Traversal

namespace Dependencies

/-- The order of evaluation is the order of a recursive depth-first visit: from the first line to
the last, each line that is not marked is marked, the lines that it depends on are visited in turn,
and then it is emitted. Cycles make no difference. -/
theorem order_eq_postorder {dependencies : Dependencies} (valid : dependencies.Valid) :
    dependencies.order = dependencies.postorder := by
  have everything : dependencies.left [] = List.range dependencies.length :=
    List.filter_eq_self.mpr fun line _ => by simp
  have finished := Traversal.finished_run valid (List.range dependencies.length) [] [] rfl
  rw [everything, List.append_nil] at finished
  show (Traversal.run dependencies (Traversal.start dependencies)).finished.reverse = _
  rw [Traversal.start, finished, List.reverse_reverse, postorder]

/-- Lines that lead back to each other, one of them named twice, and a line that depends on itself,
in the order in which they are emitted. -/
theorem order_of_entangled : Valid [[1, 1], [2], [0, 3, 1], [], [4, 2]] ∧
    order [[1, 1], [2], [0, 3, 1], [], [4, 2]] = [3, 2, 1, 0, 4] := by
  have valid : Valid [[1, 1], [2], [0, 3, 1], [], [4, 2]] := by
    intro line other depends
    rcases line with _ | _ | _ | _ | _ | line
    all_goals simp [of] at depends ⊢
    all_goals omega
  have emitted : postorder [[1, 1], [2], [0, 3, 1], [], [4, 2]] = [3, 2, 1, 0, 4] := by cbv
  exact ⟨valid, (order_eq_postorder valid).trans emitted⟩

end Dependencies

end UnitSheet
