/-
This file says when the search for a cycle finds one, and how far an order can be kept.

As long as the search has not ended it goes the way of a traversal: the lines without a first stamp
are those not yet entered, and of the others those without a second stamp are the ones on the
path (`Tracks`). A dependency on such a line leads back, so it closes a cycle. When the search
ends without one, every dependency was finished before the line that names it, and the lines have
an order of evaluation; a line that leads back to itself cannot stand after every line that it
depends on, so there is no cycle. With or without cycles, the order has a line after those it
depends on wherever that is possible: the only dependencies that can come later are those that
lead back to the line.
-/

import UnitSheet.Proofs.Traversal

namespace UnitSheet

namespace Dependencies

variable {dependencies : Dependencies}

/-! ### Orders and cycles -/

/-- Where a line stands after all that it depends on, it stands after all that it leads to. -/
theorem IsOrder.idxOf_lt_of_transGen {order : List Nat} (isOrder : dependencies.IsOrder order)
    {line other : Nat} (inside : line < dependencies.length)
    (leads : Relation.TransGen dependencies.DependsOn line other) :
    order.idxOf other < order.idxOf line := by
  induction leads using Relation.TransGen.head_induction_on with
  | single depends => exact isOrder.idxOf_lt inside depends
  | head depends _ inductionHypothesis =>
    have next := isOrder.lt_length inside depends
    exact Nat.lt_trans (inductionHypothesis next) (isOrder.idxOf_lt inside depends)

/-- Only one of the lines can depend on anything. -/
theorem lt_length_of_dependsOn {line other : Nat} (depends : dependencies.DependsOn line other) :
    line < dependencies.length := by
  by_contra outside
  rw [DependsOn, of_eq_nil (Nat.le_of_not_lt outside)] at depends
  cases depends

theorem lt_length_of_transGen {line other : Nat}
    (leads : Relation.TransGen dependencies.DependsOn line other) :
    line < dependencies.length := by
  obtain ⟨next, depends, _⟩ := Relation.TransGen.head'_iff.mp leads
  exact lt_length_of_dependsOn depends

/-- Dependencies with a cycle have no order of evaluation. -/
theorem IsOrder.not_transGen {order : List Nat} (isOrder : dependencies.IsOrder order)
    (line : Nat) : ¬ Relation.TransGen dependencies.DependsOn line line := by
  intro cycle
  have before := isOrder.idxOf_lt_of_transGen (lt_length_of_transGen cycle) cycle
  exact Nat.lt_irrefl _ before

end Dependencies

namespace CycleSearch

variable {dependencies : Dependencies} {discovered finished stamps starts rest : List Nat}
  {clock line next : Nat} {positive : 0 < clock} {search : CycleSearch} {traversal : Traversal}

/-! ### Stamps -/

/-- Without a stamp are the lines that had none, except for the one that gets it. -/
theorem isUnstamped_set (positive : 0 < clock) (line other : Nat) :
    isUnstamped (stamps.set line clock) other = (isUnstamped stamps other && other != line) := by
  rw [isUnstamped, isUnstamped, List.getElem?_set]
  by_cases same : line = other
  · subst same
    have stamped : ¬ clock = 0 := Nat.ne_of_gt positive
    by_cases inside : line < stamps.length <;> simp [inside, stamped]
  · simp [same, Ne.symm same]

theorem isUnstamped_replicate (count line : Nat) :
    isUnstamped (List.replicate count 0) line = decide (line < count) := by
  rw [isUnstamped, List.getElem?_replicate]
  by_cases inside : line < count <;> simp [inside]

/-- Stamping a line takes it away from those without a stamp. -/
theorem erase_filter_isUnstamped (positive : 0 < clock)
    (distinct : (starts.filter (isUnstamped stamps)).Nodup) (line : Nat) :
    (starts.filter (isUnstamped stamps)).erase line =
      starts.filter (isUnstamped (stamps.set line clock)) := by
  rw [distinct.erase_eq_filter, List.filter_filter]
  refine List.filter_congr fun other _ => ?_
  rw [isUnstamped_set positive, Bool.and_comm]

/-! ### The search follows a traversal -/

/-- The traversal that a search carries out. Nothing has been passed over without being finished.
The lines not yet entered are those without a first stamp, all of them are still to be started
from, and the lines that are not finished are those without a second stamp. -/
structure Tracks (dependencies : Dependencies) (search : CycleSearch) (traversal : Traversal) :
    Prop where
  sound : traversal.Sound dependencies fun _ _ => False
  unseen : traversal.unseen = search.starts.filter (isUnstamped search.discovered)
  starts : ∀ line, isUnstamped search.discovered line → line ∈ search.starts
  path : traversal.path = search.stack
  finished : ∀ line < dependencies.length,
    isUnstamped search.finished line ↔ line ∉ traversal.finished

theorem tracks_start (dependencies : Dependencies) :
    Tracks dependencies (start dependencies) (Traversal.start dependencies) where
  sound := Traversal.sound_start dependencies _
  unseen := by
    refine (List.filter_eq_self.mpr fun line member => ?_).symm
    rw [start, isUnstamped_replicate]
    exact decide_eq_true (List.mem_range.mp member)
  starts := by
    intro line unstamped
    rw [start, isUnstamped_replicate] at unstamped
    exact List.mem_range.mpr (of_decide_eq_true unstamped)
  path := rfl
  finished := by
    intro line inside
    rw [start, isUnstamped_replicate]
    exact iff_of_true (decide_eq_true inside) List.not_mem_nil

theorem Tracks.mem_unseen (tracks : Tracks dependencies search traversal) :
    line ∈ traversal.unseen ↔ isUnstamped search.discovered line := by
  rw [tracks.unseen, List.mem_filter]
  exact and_iff_right_of_imp (tracks.starts line)

/-- No line without a stamp is to be started from twice. -/
theorem Tracks.nodup (tracks : Tracks dependencies search traversal) :
    (search.starts.filter (isUnstamped search.discovered)).Nodup := by
  have distinct := tracks.sound.places.nodup_iff.mpr List.nodup_range
  rw [tracks.unseen] at distinct
  exact (List.nodup_append.mp distinct).1

section

variable {outer : List Traversal.Visit} {remaining : List Nat}

/-- The search starts from a line that was not entered. -/
theorem Tracks.startFrom (unstamped : isUnstamped discovered line)
    (tracks : Tracks dependencies ⟨discovered, finished, clock, [], line :: rest, positive⟩
      traversal) :
    Tracks dependencies
      (discover dependencies line ⟨discovered, finished, clock, [], rest, positive⟩)
      ⟨rest.filter (isUnstamped discovered), [⟨line, dependencies.of line⟩],
        traversal.finished⟩ := by
  obtain ⟨unseen, path, done⟩ := traversal
  have isPath : path = [] := tracks.path
  have first : unseen = line :: rest.filter (isUnstamped discovered) :=
    tracks.unseen.trans (List.filter_cons_of_pos unstamped)
  subst isPath first
  refine ⟨tracks.sound.enterFirst, ?_, ?_, rfl, tracks.finished⟩
  · have erased := erase_filter_isUnstamped positive tracks.nodup line
    rw [List.filter_cons_of_pos unstamped, List.erase_cons_head, List.filter_cons_of_neg] at erased
    · exact erased
    · simp [isUnstamped_set positive]
  · intro other unentered
    obtain ⟨before, different⟩ :=
      Bool.and_eq_true_iff.mp ((isUnstamped_set positive line other).symm.trans unentered)
    exact (List.mem_cons.mp (tracks.starts other before)).resolve_left (bne_iff_ne.mp different)

/-- The search does not start from a line that was entered. -/
theorem Tracks.skip (stamped : ¬ isUnstamped discovered line)
    (tracks : Tracks dependencies ⟨discovered, finished, clock, [], line :: rest, positive⟩
      traversal) :
    Tracks dependencies ⟨discovered, finished, clock, [], rest, positive⟩ traversal where
  sound := tracks.sound
  unseen := tracks.unseen.trans (List.filter_cons_of_neg stamped)
  starts := by
    intro other unentered
    refine (List.mem_cons.mp (tracks.starts other unentered)).resolve_left fun same => ?_
    exact stamped (same ▸ unentered)
  path := tracks.path
  finished := tracks.finished

/-- The innermost line is finished. -/
theorem Tracks.finish
    (tracks : Tracks dependencies
      ⟨discovered, finished, clock, ⟨line, []⟩ :: outer, starts, positive⟩ traversal) :
    Tracks dependencies
      (CycleSearch.finish line outer
        ⟨discovered, finished, clock, ⟨line, []⟩ :: outer, starts, positive⟩)
      ⟨traversal.unseen, outer, line :: traversal.finished⟩ := by
  obtain ⟨unseen, path, done⟩ := traversal
  have isPath : path = ⟨line, []⟩ :: outer := tracks.path
  subst isPath
  refine ⟨tracks.sound.finish, tracks.unseen, tracks.starts, rfl, fun other inside => ?_⟩
  show isUnstamped (finished.set line clock) other = true ↔ other ∉ line :: done
  rw [isUnstamped_set positive, Bool.and_eq_true_iff, bne_iff_ne, List.mem_cons, not_or, and_comm]
  exact and_congr_right fun _ => tracks.finished other inside

/-- The innermost line enters its next dependency. -/
theorem Tracks.enter (unstamped : isUnstamped discovered next)
    (tracks : Tracks dependencies
      ⟨discovered, finished, clock, ⟨line, next :: remaining⟩ :: outer, starts, positive⟩
      traversal) :
    Tracks dependencies
      (discover dependencies next
        ⟨discovered, finished, clock, ⟨line, remaining⟩ :: outer, starts, positive⟩)
      ⟨traversal.unseen.erase next, ⟨next, dependencies.of next⟩ :: ⟨line, remaining⟩ :: outer,
        traversal.finished⟩ := by
  have unentered := tracks.mem_unseen.mpr unstamped
  obtain ⟨unseen, path, done⟩ := traversal
  have isPath : path = ⟨line, next :: remaining⟩ :: outer := tracks.path
  subst isPath
  refine ⟨tracks.sound.enterNext unentered, ?_, fun other fresh => ?_, rfl, tracks.finished⟩
  · show unseen.erase next = _
    rw [show unseen = _ from tracks.unseen]
    exact erase_filter_isUnstamped positive tracks.nodup next
  · have before := (isUnstamped_set positive next other).symm.trans fresh
    exact tracks.starts other (Bool.and_eq_true_iff.mp before).1

/-- The innermost line passes over a dependency that is finished. -/
theorem Tracks.passOver (valid : dependencies.Valid) (done : ¬ isUnstamped finished next)
    (tracks : Tracks dependencies
      ⟨discovered, finished, clock, ⟨line, next :: remaining⟩ :: outer, starts, positive⟩
      traversal) :
    Tracks dependencies ⟨discovered, finished, clock, ⟨line, remaining⟩ :: outer, starts, positive⟩
      ⟨traversal.unseen, ⟨line, remaining⟩ :: outer, traversal.finished⟩ := by
  obtain ⟨unseen, path, emitted⟩ := traversal
  have isPath : path = ⟨line, next :: remaining⟩ :: outer := tracks.path
  subst isPath
  have inside := valid line next tracks.sound.direct
  have isEmitted : next ∈ emitted := by
    by_contra unfinished
    exact done ((tracks.finished next inside).mpr unfinished)
  exact ⟨tracks.sound.passOver (.inl isEmitted), tracks.unseen, tracks.starts, rfl, tracks.finished⟩

/-- A dependency on a line that was entered and not finished closes a cycle. -/
theorem Tracks.exists_cycle (valid : dependencies.Valid) (entered : ¬ isUnstamped discovered next)
    (unfinished : isUnstamped finished next)
    (tracks : Tracks dependencies
      ⟨discovered, finished, clock, ⟨line, next :: remaining⟩ :: outer, starts, positive⟩
      traversal) :
    ∃ line, Relation.TransGen dependencies.DependsOn line line := by
  have known : next ∉ traversal.unseen := fun absent => entered (tracks.mem_unseen.mp absent)
  obtain ⟨unseen, path, done⟩ := traversal
  have isPath : path = ⟨line, next :: remaining⟩ :: outer := tracks.path
  subst isPath
  have isOpen : next ∉ done :=
    (tracks.finished next (valid line next tracks.sound.direct)).mp unfinished
  have back := (tracks.sound.finished_or_leads valid known).resolve_left isOpen
  exact ⟨line, Relation.TransGen.head' tracks.sound.direct back⟩

end

/-! ### The whole search -/

/-- A step keeps the search on the way of a traversal; where it ends, it has found a cycle or the
traversal is over. -/
theorem Tracks.step (valid : dependencies.Valid) (tracks : Tracks dependencies search traversal) :
    match search.step dependencies with
    | .onward next => ∃ later, Tracks dependencies next later
    | .ended true => ∃ line, Relation.TransGen dependencies.DependsOn line line
    | .ended false => traversal.unseen = [] ∧ traversal.path = [] := by
  obtain ⟨discovered, finished, clock, stack, starts, positive⟩ := search
  match stack, starts with
  | [], [] => exact ⟨tracks.unseen, tracks.path⟩
  | [], line :: rest =>
    rw [step_start]
    by_cases unstamped : isUnstamped discovered line
    · rw [if_pos unstamped]
      exact ⟨_, tracks.startFrom unstamped⟩
    · rw [if_neg unstamped]
      exact ⟨_, tracks.skip unstamped⟩
  | ⟨line, []⟩ :: outer, starts => exact ⟨_, tracks.finish⟩
  | ⟨line, next :: remaining⟩ :: outer, starts =>
    rw [step_follow]
    by_cases unstamped : isUnstamped discovered next
    · rw [if_pos unstamped]
      exact ⟨_, tracks.enter unstamped⟩
    rw [if_neg unstamped]
    by_cases unfinished : isUnstamped finished next
    · rw [if_pos unfinished]
      exact tracks.exists_cycle valid unstamped unfinished
    · rw [if_neg unfinished]
      exact ⟨_, tracks.passOver valid unfinished⟩

/-- A search that ends with a cycle has found one; one that ends without leaves an order of
evaluation. -/
theorem Tracks.run (valid : dependencies.Valid) (tracks : Tracks dependencies search traversal) :
    match search.run dependencies with
    | true => ∃ line, Relation.TransGen dependencies.DependsOn line line
    | false => ∃ order, dependencies.IsOrder order := by
  induction search using CycleSearch.run.induct dependencies generalizing traversal with
  | case1 search cyclic stopped =>
    have ended := tracks.step valid
    rw [stopped] at ended
    rw [CycleSearch.run, stopped]
    cases cyclic with
    | true => exact ended
    | false =>
      refine ⟨traversal.finished.reverse, tracks.sound.finished_perm ended.1 ended.2, ?_⟩
      intro before line rest split other depends
      exact (tracks.sound.before_or_excused split other depends).resolve_right id
  | case2 search next stepped inductionHypothesis =>
    have followed := tracks.step valid
    rw [stepped] at followed
    rw [CycleSearch.run, stepped]
    obtain ⟨later, tracks⟩ := followed
    exact inductionHypothesis tracks

end CycleSearch

namespace Dependencies

variable {dependencies : Dependencies}

/-! ### Cycles -/

/-- A cycle that is found is there. -/
theorem exists_cycle_of_isCyclic (valid : dependencies.Valid)
    (cyclic : dependencies.isCyclic = true) :
    ∃ line, Relation.TransGen dependencies.DependsOn line line := by
  have found := (CycleSearch.tracks_start dependencies).run valid
  rw [← isCyclic, cyclic] at found
  exact found

/-- A cycle that is there is found. -/
theorem isCyclic_of_cycle (valid : dependencies.Valid) {line : Nat}
    (cycle : Relation.TransGen dependencies.DependsOn line line) :
    dependencies.isCyclic = true := by
  have found := (CycleSearch.tracks_start dependencies).run valid
  rw [← isCyclic] at found
  cases answer : dependencies.isCyclic with
  | true => rfl
  | false =>
    rw [answer] at found
    obtain ⟨order, isOrder⟩ := found
    exact absurd cycle (isOrder.not_transGen line)

/-- A cycle is found exactly when some line leads back to itself through one or more
dependencies, whatever lines depend on, on themselves and several times on the same one too. -/
theorem isCyclic_iff_exists_transGen (valid : dependencies.Valid) :
    dependencies.isCyclic = true ↔
      ∃ line, Relation.TransGen dependencies.DependsOn line line := by
  constructor
  · exact exists_cycle_of_isCyclic valid
  · rintro ⟨line, cycle⟩
    exact isCyclic_of_cycle valid cycle

/-- The cycle of two lines that are entered from a third one, which names the first twice. -/
theorem exists_transGen_of_mutual : Valid [[1, 1], [2], [1]] ∧
    ∃ line, Relation.TransGen (DependsOn [[1, 1], [2], [1]]) line line := by
  have valid : Valid [[1, 1], [2], [1]] := by
    intro line other depends
    rcases line with _ | _ | _ | line
    all_goals simp [of] at depends ⊢
    all_goals omega
  have found : isCyclic [[1, 1], [2], [1]] = true := by cbv
  exact ⟨valid, (isCyclic_iff_exists_transGen valid).mp found⟩

/-! ### The order with cycles -/

/-- A line comes after those it depends on unless they lead back to it. -/
theorem idxOf_lt_of_not_leads (valid : dependencies.Valid) {line other : Nat}
    (depends : dependencies.DependsOn line other) (away : ¬ dependencies.Leads other line) :
    dependencies.order.idxOf other < dependencies.order.idxOf line := by
  have member : line ∈ dependencies.order :=
    (order_perm valid).mem_iff.mpr (List.mem_range.mpr (lt_length_of_dependsOn depends))
  obtain ⟨before, rest, split, first⟩ := List.eq_append_cons_of_mem member
  refine idxOf_lt_of_split split first ?_
  exact (before_or_leads valid split other depends).resolve_right away

/-- The order has every line once, and every line after those it depends on as far as they do not
lead back to it; where no line leads back to itself, after all of those it depends on. -/
theorem order_respects_dependencies (valid : dependencies.Valid) :
    dependencies.order.Perm (List.range dependencies.length) ∧
    (∀ line other, dependencies.DependsOn line other → ¬ dependencies.Leads other line →
      dependencies.order.idxOf other < dependencies.order.idxOf line) ∧
    ((∀ line, ¬ Relation.TransGen dependencies.DependsOn line line) →
      ∀ line other, dependencies.DependsOn line other →
        dependencies.order.idxOf other < dependencies.order.idxOf line) := by
  refine ⟨order_perm valid, fun _ _ => idxOf_lt_of_not_leads valid, ?_⟩
  intro acyclic line other depends
  refine idxOf_lt_of_not_leads valid depends fun back => ?_
  exact acyclic line (Relation.TransGen.head' depends back)

/-- A line beside a cycle that depends on it comes after the line that it names. -/
theorem idxOf_lt_beside_cycle : Valid [[1], [0], [0]] ∧ ¬ Leads [[1], [0], [0]] 0 2 ∧
    (order [[1], [0], [0]]).idxOf 0 < (order [[1], [0], [0]]).idxOf 2 := by
  have targets : ∀ line other, DependsOn [[1], [0], [0]] line other → other < 2 := by
    intro line other depends
    rcases line with _ | _ | _ | line
    all_goals simp [DependsOn, of] at depends
    all_goals omega
  have valid : Valid [[1], [0], [0]] := fun line other depends =>
    Nat.lt_succ_of_lt (targets line other depends)
  have away : ¬ Leads [[1], [0], [0]] 0 2 := by
    intro leads
    rcases Relation.ReflTransGen.cases_tail leads with same | ⟨line, _, depends⟩
    · cases same
    · exact Nat.lt_irrefl 2 (targets line 2 depends)
  obtain ⟨_, respects, _⟩ := order_respects_dependencies valid
  exact ⟨valid, away, respects 2 0 List.mem_cons_self away⟩

/-- Without a cycle the lines are finished in an order in which they can be evaluated. -/
theorem isOrder_order (valid : dependencies.Valid) (acyclic : dependencies.isCyclic = false) :
    dependencies.IsOrder dependencies.order where
  perm := order_perm valid
  after := by
    intro before line rest split other depends
    refine (before_or_leads valid split other depends).resolve_right fun back => ?_
    have cyclic := isCyclic_of_cycle valid (Relation.TransGen.head' depends back)
    exact Bool.false_ne_true (acyclic.symm.trans cyclic)

end Dependencies

end UnitSheet
