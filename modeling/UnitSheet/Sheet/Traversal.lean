/-
This file visits lines depth first along their dependencies, to put them in order and to search
for cycles.

A line is entered when it is first met, and finished when everything it depends on has been
entered. The lines in the order in which they are finished are the order of evaluation. The
traversal is a `step?` on a state that holds the lines not yet entered, the path of lines that
are not yet finished, and the lines that are.

The search for a cycle goes the same way and keeps no order. It stamps each line with the time at
which it is entered and the time at which it is finished, and ends as soon as a dependency leads
to a line that has the first stamp and not the second.
-/

namespace UnitSheet

/-- The lines that each line depends on, by position. -/
abbrev Dependencies := List (List Nat)

/-- The lines that a line depends on; no line outside of the list depends on any. -/
def Dependencies.of (dependencies : Dependencies) (line : Nat) : List Nat :=
  dependencies[line]?.getD []

namespace Traversal

/-- A line that has been entered, and its dependencies that have not been followed yet. -/
structure Visit where
  line : Nat
  remaining : List Nat

end Traversal

/-- The state of a traversal. The innermost line of the path comes first, and so does the line
finished last. -/
structure Traversal where
  unseen : List Nat
  path : List Traversal.Visit
  finished : List Nat

namespace Traversal

/-- Nothing has been entered. -/
def start (dependencies : Dependencies) : Traversal :=
  ⟨List.range dependencies.length, [], []⟩

/-- Enters a line. -/
def enter (dependencies : Dependencies) (line : Nat) (traversal : Traversal) : Traversal :=
  { traversal with
    unseen := traversal.unseen.erase line
    path := ⟨line, dependencies.of line⟩ :: traversal.path }

/-- One step: the innermost line follows its next dependency, or is finished if none is left. When
the path is empty the first line not yet entered is entered; when there is none, the traversal
is over. -/
def step? (dependencies : Dependencies) (traversal : Traversal) : Option Traversal :=
  match traversal.path with
  | [] => traversal.unseen.head?.map fun line => traversal.enter dependencies line
  | ⟨line, []⟩ :: outer =>
    some { traversal with path := outer, finished := line :: traversal.finished }
  | ⟨line, next :: remaining⟩ :: outer =>
    let followed := { traversal with path := ⟨line, remaining⟩ :: outer }
    if traversal.unseen.contains next then some (followed.enter dependencies next)
    else some followed

/-- What is left to do on a path: each dependency to follow, and each line to finish. -/
def pending (path : List Visit) : Nat :=
  path.foldr (fun visit rest => visit.remaining.length + 1 + rest) 0

/-- A step enters a line, or leaves less to do on the path. -/
theorem step?_decreases {dependencies : Dependencies} {traversal next : Traversal}
    (stepped : traversal.step? dependencies = some next) :
    Prod.Lex (· < ·) (· < ·) (next.unseen.length, pending next.path)
      (traversal.unseen.length, pending traversal.path) := by
  obtain ⟨unseen, path, finished⟩ := traversal
  cases path with
  | nil =>
    cases unseen with
    | nil => simp [step?] at stepped
    | cons line rest =>
      simp only [step?, List.head?_cons, Option.map_some, Option.some.injEq] at stepped
      subst stepped
      exact Prod.Lex.left _ _ (by simp [enter])
  | cons visit outer =>
    obtain ⟨line, remaining⟩ := visit
    cases remaining with
    | nil =>
      simp only [step?, Option.some.injEq] at stepped
      subst stepped
      exact Prod.Lex.right _ (by simp [pending])
    | cons target remaining =>
      simp only [step?] at stepped
      split at stepped
      · rename_i member
        simp only [Option.some.injEq] at stepped
        subst stepped
        have member : target ∈ unseen := by simpa using member
        have positive : 0 < unseen.length := List.length_pos_of_mem member
        refine Prod.Lex.left _ _ ?_
        simp only [enter, List.length_erase_of_mem member]
        omega
      · simp only [Option.some.injEq] at stepped
        subst stepped
        exact Prod.Lex.right _ (by simp [pending])

/-- The traversal when no step is left. -/
def run (dependencies : Dependencies) (traversal : Traversal) : Traversal :=
  match _ : traversal.step? dependencies with
  | none => traversal
  | some next => run dependencies next
termination_by (traversal.unseen.length, pending traversal.path)
decreasing_by exact step?_decreases (by assumption)

/-- The traversal of all lines. -/
def complete (dependencies : Dependencies) : Traversal :=
  (start dependencies).run dependencies

end Traversal

/-- The lines in an order in which a line comes after those it depends on. -/
def Dependencies.order (dependencies : Dependencies) : List Nat :=
  (Traversal.complete dependencies).finished.reverse

/-- The state of a search for a cycle: the stamps of the lines, the next stamp, the lines that are
entered and not finished with the innermost first, and the lines from which the search has still
to start. A stamp of zero says that the line has not been stamped. -/
structure CycleSearch where
  discovered : List Nat
  finished : List Nat
  clock : Nat
  stack : List Traversal.Visit
  starts : List Nat
  clock_pos : 0 < clock

namespace CycleSearch

/-- No line has been stamped. -/
def start (dependencies : Dependencies) : CycleSearch where
  discovered := List.replicate dependencies.length 0
  finished := List.replicate dependencies.length 0
  clock := 1
  stack := []
  starts := List.range dependencies.length
  clock_pos := Nat.one_pos

/-- Whether a line is there and has not been stamped. -/
def isUnstamped (stamps : List Nat) (line : Nat) : Bool :=
  stamps[line]? == some 0

/-- Enters a line. -/
def discover (dependencies : Dependencies) (line : Nat) (search : CycleSearch) : CycleSearch :=
  { search with
    discovered := search.discovered.set line search.clock
    clock := search.clock + 1
    stack := ⟨line, dependencies.of line⟩ :: search.stack
    clock_pos := Nat.succ_pos search.clock }

/-- Finishes the innermost line, inside of the given ones. -/
def finish (line : Nat) (outer : List Traversal.Visit) (search : CycleSearch) : CycleSearch :=
  { search with
    finished := search.finished.set line search.clock
    clock := search.clock + 1
    stack := outer
    clock_pos := Nat.succ_pos search.clock }

/-- What a step comes to: the search is over and says whether there is a cycle, or it goes on. -/
inductive Progress where
  | ended (cyclic : Bool)
  | onward (next : CycleSearch)

/-- One step. The innermost line follows its next dependency: a line that was not entered is
entered, one that was entered and not finished ends the search, and one that is finished is passed
over. Without a dependency left the line is finished itself. When nothing is entered the search
starts from the next line, unless it was entered before. -/
def step (dependencies : Dependencies) (search : CycleSearch) : Progress :=
  match search.stack with
  | [] =>
    match search.starts with
    | [] => .ended false
    | line :: rest =>
      let started := { search with starts := rest }
      if isUnstamped search.discovered line then .onward (started.discover dependencies line)
      else .onward started
  | ⟨line, []⟩ :: outer => .onward (search.finish line outer)
  | ⟨line, next :: remaining⟩ :: outer =>
    let followed := { search with stack := ⟨line, remaining⟩ :: outer }
    if isUnstamped search.discovered next then .onward (followed.discover dependencies next)
    else if isUnstamped search.finished next then .ended true
    else .onward followed

section

variable {dependencies : Dependencies} {discovered finished : List Nat} {clock : Nat}
  {positive : 0 < clock}

/-- The two ways to look at the next line to start from. -/
theorem step_start (line : Nat) (rest : List Nat) :
    step dependencies ⟨discovered, finished, clock, [], line :: rest, positive⟩ =
      if isUnstamped discovered line then
        .onward (discover dependencies line ⟨discovered, finished, clock, [], rest, positive⟩)
      else .onward ⟨discovered, finished, clock, [], rest, positive⟩ :=
  rfl

/-- The three ways to follow a dependency. -/
theorem step_follow (line next : Nat) (remaining : List Nat) (outer : List Traversal.Visit)
    (starts : List Nat) :
    let followed : CycleSearch :=
      ⟨discovered, finished, clock, ⟨line, remaining⟩ :: outer, starts, positive⟩
    step dependencies
        ⟨discovered, finished, clock, ⟨line, next :: remaining⟩ :: outer, starts, positive⟩ =
      if isUnstamped discovered next then .onward (followed.discover dependencies next)
      else if isUnstamped finished next then .ended true
      else .onward followed :=
  rfl

end

/-- Stamping a line leaves fewer lines without a stamp. -/
theorem count_set_lt {stamps : List Nat} {line stamp : Nat} (unstamped : isUnstamped stamps line)
    (positive : 0 < stamp) : (stamps.set line stamp).count 0 < stamps.count 0 := by
  obtain ⟨inside, zero⟩ := List.getElem?_eq_some_iff.mp (eq_of_beq unstamped)
  have counted : 0 < stamps.count 0 := List.count_pos_iff.mpr (zero ▸ List.getElem_mem inside)
  have stamped : ¬ (stamp == 0) = true := by
    rw [beq_iff_eq]
    exact Nat.ne_of_gt positive
  rw [List.count_set inside, if_pos (beq_iff_eq.mpr zero), if_neg stamped]
  omega

/-- A step of a search that goes on enters a line, or leaves less to do. -/
theorem step_decreases {dependencies : Dependencies} {search next : CycleSearch}
    (stepped : search.step dependencies = .onward next) :
    Prod.Lex (· < ·) (· < ·)
      (next.discovered.count 0, Traversal.pending next.stack + next.starts.length)
      (search.discovered.count 0, Traversal.pending search.stack + search.starts.length) := by
  obtain ⟨discovered, finished, clock, stack, starts, positive⟩ := search
  match stack, starts with
  | [], [] => cases stepped
  | [], line :: rest =>
    rw [step_start] at stepped
    split at stepped
    · cases stepped
      exact Prod.Lex.left _ _ (count_set_lt (by assumption) positive)
    · cases stepped
      exact Prod.Lex.right _ (by simp)
  | ⟨line, []⟩ :: outer, starts =>
    cases stepped
    exact Prod.Lex.right _ (by simp [finish, Traversal.pending])
  | ⟨line, target :: remaining⟩ :: outer, starts =>
    rw [step_follow] at stepped
    split at stepped
    · cases stepped
      exact Prod.Lex.left _ _ (count_set_lt (by assumption) positive)
    split at stepped
    · cases stepped
    · cases stepped
      exact Prod.Lex.right _ (by simp [Traversal.pending])

/-- What the search says when it is over. -/
def run (dependencies : Dependencies) (search : CycleSearch) : Bool :=
  match _ : search.step dependencies with
  | .ended cyclic => cyclic
  | .onward next => run dependencies next
termination_by (search.discovered.count 0, Traversal.pending search.stack + search.starts.length)
decreasing_by exact step_decreases (by assumption)

end CycleSearch

/-- Whether some line depends on itself, perhaps through other lines. -/
def Dependencies.isCyclic (dependencies : Dependencies) : Bool :=
  (CycleSearch.start dependencies).run dependencies

end UnitSheet
