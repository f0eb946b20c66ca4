/-
This file says what a traversal leaves behind.

Each line is at every moment in one of three places: not yet entered, on the path, or
finished. What a line on the path depends on is still to be followed, or directly inside it,
or finished; the only other case is a dependency on a line of the path itself, which leads back
to the line. Which dependencies are excused in this way is a parameter, so that a traversal that
stops at the first of them is covered too. All of this is kept by one step (`Sound.step`), so it
holds at the end, where only finished lines are left: they are all lines, and each of them comes
after those it depends on, except for those that lead back to it.
-/

import Mathlib.Data.List.Basic
import Mathlib.Logic.Relation
import UnitSheet.Sheet.Traversal

namespace UnitSheet

namespace Dependencies

/-- A line depends on another one. -/
def DependsOn (dependencies : Dependencies) (line other : Nat) : Prop :=
  other ∈ dependencies.of line

/-- A line depends on another one through any number of lines, perhaps none. -/
def Leads (dependencies : Dependencies) : Nat → Nat → Prop :=
  Relation.ReflTransGen dependencies.DependsOn

/-- Every dependency is on one of the lines. -/
def Valid (dependencies : Dependencies) : Prop :=
  ∀ line, ∀ other ∈ dependencies.of line, other < dependencies.length

/-- A line that is not there depends on none. -/
theorem of_eq_nil {dependencies : Dependencies} {line : Nat}
    (outside : dependencies.length ≤ line) : dependencies.of line = [] := by
  show dependencies[line]?.getD [] = []
  rw [List.getElem?_eq_none outside, Option.getD_none]

/-- An order of evaluation: every line once, and after the lines it depends on. -/
structure IsOrder (dependencies : Dependencies) (order : List Nat) : Prop where
  perm : order.Perm (List.range dependencies.length)
  after : ∀ before line rest, order = before ++ line :: rest →
    ∀ other ∈ dependencies.of line, other ∈ before

end Dependencies

namespace Traversal

variable {dependencies : Dependencies} {traversal next : Traversal}

/-! ### What every step keeps -/

variable {excused : Nat → Nat → Prop}

/-- What the lines of a path depend on, given the line that stands directly inside the innermost
of them, is accounted for: it is still to be followed, or directly inside, or finished, or there
is an excuse for having passed it over. -/
def Followed (dependencies : Dependencies) (excused : Nat → Nat → Prop) (finished : List Nat) :
    Option Nat → List Visit → Prop
  | _, [] => True
  | inside, visit :: outer =>
    (∀ other ∈ dependencies.of visit.line, other ∈ visit.remaining ∨ inside = some other ∨
      other ∈ finished ∨ excused visit.line other) ∧
    Followed dependencies excused finished (some visit.line) outer

/-- Lines, the last one first, each after those it depends on unless there is an excuse. -/
def Settled (dependencies : Dependencies) (excused : Nat → Nat → Prop) : List Nat → Prop
  | [] => True
  | line :: earlier =>
    (∀ other ∈ dependencies.of line, other ∈ earlier ∨ excused line other) ∧
    Settled dependencies excused earlier

/-- What holds of a traversal between steps. -/
structure Sound (dependencies : Dependencies) (excused : Nat → Nat → Prop)
    (traversal : Traversal) : Prop where
  places : (traversal.unseen ++ (traversal.path.map Visit.line ++ traversal.finished)).Perm
    (List.range dependencies.length)
  remaining : ∀ visit ∈ traversal.path, visit.remaining ⊆ dependencies.of visit.line
  chain : traversal.path.Pairwise fun inner outer => dependencies.Leads outer.line inner.line
  followed : Followed dependencies excused traversal.finished none traversal.path
  settled : Settled dependencies excused traversal.finished

theorem sound_start (dependencies : Dependencies) (excused : Nat → Nat → Prop) :
    Sound dependencies excused (start dependencies) where
  places := by
    show (List.range dependencies.length ++ []).Perm _
    rw [List.append_nil]
  remaining := fun _ member => absurd member List.not_mem_nil
  chain := List.Pairwise.nil
  followed := trivial
  settled := trivial

/-! ### What is kept when more is finished -/

theorem Followed.mono {finished later : List Nat} (kept : finished ⊆ later) {inside : Option Nat}
    {path : List Visit} (followed : Followed dependencies excused finished inside path) :
    Followed dependencies excused later inside path := by
  induction path generalizing inside with
  | nil => trivial
  | cons visit outer inductionHypothesis =>
    refine ⟨fun other depends => ?_, inductionHypothesis followed.2⟩
    have before := followed.1 other depends
    exact before.imp_right (Or.imp_right (Or.imp_left fun done => kept done))

/-- When the line directly inside a path is finished, nothing is inside the path any more. -/
theorem Followed.finish {finished : List Nat} {line : Nat} {path : List Visit}
    (followed : Followed dependencies excused finished (some line) path) :
    Followed dependencies excused (line :: finished) none path := by
  have kept := followed.mono (List.subset_cons_self line finished)
  cases path with
  | nil => trivial
  | cons visit outer =>
    refine ⟨fun other depends => ?_, kept.2⟩
    rcases kept.1 other depends with left | directly | done
    · exact .inl left
    · cases directly
      exact .inr (.inr (.inl List.mem_cons_self))
    · exact .inr (.inr done)

/-! ### One step -/

variable {unseen finished : List Nat} {path : List Visit}

/-- A line outside of every path is entered. -/
theorem Sound.enterFirst {line : Nat} {rest : List Nat}
    (sound : Sound dependencies excused ⟨line :: rest, [], finished⟩) :
    Sound dependencies excused ⟨rest, [⟨line, dependencies.of line⟩], finished⟩ where
  places := by
    refine List.Perm.trans ?_ sound.places
    exact List.perm_middle
  remaining := by
    intro visit member
    rw [List.mem_singleton.mp member]
    exact List.Subset.refl _
  chain := List.pairwise_singleton _ _
  followed := ⟨fun _ depends => .inl depends, trivial⟩
  settled := sound.settled

/-- The innermost line is finished. -/
theorem Sound.finish {line : Nat}
    (sound : Sound dependencies excused ⟨unseen, ⟨line, []⟩ :: path, finished⟩) :
    Sound dependencies excused ⟨unseen, path, line :: finished⟩ where
  places := by
    refine List.Perm.trans (List.Perm.append_left _ ?_) sound.places
    exact List.perm_middle
  remaining := fun visit member => sound.remaining visit (List.mem_cons_of_mem _ member)
  chain := (List.pairwise_cons.mp sound.chain).2
  followed := sound.followed.2.finish
  settled := by
    refine ⟨fun other depends => ?_, sound.settled⟩
    rcases sound.followed.1 other depends with left | directly | done
    · cases left
    · cases directly
    · exact done

section

variable {line other : Nat} {remaining : List Nat}

/-- A dependency that is still to be followed is one. -/
theorem Sound.direct
    (sound : Sound dependencies excused ⟨unseen, ⟨line, other :: remaining⟩ :: path, finished⟩) :
    dependencies.DependsOn line other :=
  sound.remaining _ List.mem_cons_self List.mem_cons_self

/-- What is still to be followed is a dependency, also after one of them has been followed. -/
theorem Sound.remaining_tail
    (sound : Sound dependencies excused ⟨unseen, ⟨line, other :: remaining⟩ :: path, finished⟩) :
    ∀ visit ∈ ⟨line, remaining⟩ :: path, visit.remaining ⊆ dependencies.of visit.line := by
  intro visit member
  rcases List.mem_cons.mp member with rfl | member
  · exact List.Subset.trans (List.subset_cons_self _ _) (sound.remaining _ List.mem_cons_self)
  · exact sound.remaining visit (List.mem_cons_of_mem _ member)

/-- The innermost line enters its next dependency. -/
theorem Sound.enterNext (unentered : other ∈ unseen)
    (sound : Sound dependencies excused ⟨unseen, ⟨line, other :: remaining⟩ :: path, finished⟩) :
    Sound dependencies excused ⟨unseen.erase other,
      ⟨other, dependencies.of other⟩ :: ⟨line, remaining⟩ :: path, finished⟩ where
  places := by
    refine List.Perm.trans ?_ sound.places
    refine List.perm_middle.trans ?_
    exact (List.perm_cons_erase unentered).symm.append_right _
  remaining := by
    intro visit member
    rcases List.mem_cons.mp member with rfl | member
    · exact List.Subset.refl _
    · exact sound.remaining_tail visit member
  chain := by
    obtain ⟨toLine, chain⟩ := List.pairwise_cons.mp sound.chain
    refine List.pairwise_cons.mpr ⟨fun visit member => ?_, List.pairwise_cons.mpr ⟨toLine, chain⟩⟩
    rcases List.mem_cons.mp member with rfl | member
    · exact Relation.ReflTransGen.single sound.direct
    · exact (toLine visit member).tail sound.direct
  followed := by
    refine ⟨fun _ depends => .inl depends, fun another depends => ?_, sound.followed.2⟩
    rcases sound.followed.1 another depends with left | directly | done
    · rcases List.mem_cons.mp left with rfl | left
      · exact .inr (.inl rfl)
      · exact .inl left
    · cases directly
    · exact .inr (.inr done)
  settled := sound.settled

/-- A dependency that was entered before is finished, or it is on the path and leads back. -/
theorem Sound.finished_or_leads (valid : dependencies.Valid) (entered : other ∉ unseen)
    (sound : Sound dependencies excused ⟨unseen, ⟨line, other :: remaining⟩ :: path, finished⟩) :
    other ∈ finished ∨ dependencies.Leads other line := by
  -- Every line has a place, and this one is no longer among the unseen.
  have known : other ∈ List.range dependencies.length :=
    List.mem_range.mpr (valid line other sound.direct)
  rcases List.mem_append.mp (sound.places.mem_iff.mpr known) with absent | place
  · exact absurd absent entered
  rcases List.mem_append.mp place with onPath | done
  · obtain ⟨visit, member, same⟩ := List.mem_map.mp onPath
    rw [← same]
    rcases List.mem_cons.mp member with rfl | member
    · exact .inr Relation.ReflTransGen.refl
    · exact .inr ((List.pairwise_cons.mp sound.chain).1 visit member)
  · exact .inl done

/-- The innermost line passes over a dependency that is finished or excused. -/
theorem Sound.passOver (accounted : other ∈ finished ∨ excused line other)
    (sound : Sound dependencies excused ⟨unseen, ⟨line, other :: remaining⟩ :: path, finished⟩) :
    Sound dependencies excused ⟨unseen, ⟨line, remaining⟩ :: path, finished⟩ where
  places := sound.places
  remaining := sound.remaining_tail
  chain := List.pairwise_cons.mpr (List.pairwise_cons.mp sound.chain)
  followed := by
    refine ⟨fun another depends => ?_, sound.followed.2⟩
    rcases sound.followed.1 another depends with left | directly | done
    · rcases List.mem_cons.mp left with rfl | left
      · exact .inr (.inr accounted)
      · exact .inl left
    · cases directly
    · exact .inr (.inr done)
  settled := sound.settled

end

/-- The two ways to follow a dependency. -/
theorem step?_follow (line other : Nat) (remaining : List Nat) :
    step? dependencies ⟨unseen, ⟨line, other :: remaining⟩ :: path, finished⟩ =
      if unseen.contains other then
        some ⟨unseen.erase other, ⟨other, dependencies.of other⟩ :: ⟨line, remaining⟩ :: path,
          finished⟩
      else some ⟨unseen, ⟨line, remaining⟩ :: path, finished⟩ :=
  rfl

/-- Every step keeps a traversal sound, when there is an excuse for what leads back to a line. -/
theorem Sound.step (valid : dependencies.Valid)
    (excuse : ∀ line other, dependencies.Leads other line → excused line other)
    (sound : Sound dependencies excused traversal)
    (stepped : traversal.step? dependencies = some next) : Sound dependencies excused next := by
  obtain ⟨unseen, path, finished⟩ := traversal
  match path with
  | [] =>
    cases unseen with
    | nil => cases stepped
    | cons line rest =>
      have entered : some (enter dependencies line ⟨line :: rest, [], finished⟩) =
        some next := stepped
      rw [enter, List.erase_cons_head] at entered
      cases entered
      exact sound.enterFirst
  | ⟨line, []⟩ :: path =>
    cases stepped
    exact sound.finish
  | ⟨line, other :: remaining⟩ :: path =>
    by_cases unentered : other ∈ unseen
    · rw [step?_follow, if_pos (List.contains_iff_mem.mpr unentered)] at stepped
      cases stepped
      exact sound.enterNext unentered
    · rw [step?_follow, if_neg (fun known => unentered (List.contains_iff_mem.mp known))] at stepped
      cases stepped
      exact sound.passOver ((sound.finished_or_leads valid unentered).imp_right (excuse line other))

/-! ### The whole traversal -/

/-- A traversal that is over has no path and nothing left to enter. -/
theorem eq_nil_of_step?_eq_none (stopped : traversal.step? dependencies = none) :
    traversal.unseen = [] ∧ traversal.path = [] := by
  obtain ⟨unseen, path, finished⟩ := traversal
  match path with
  | [] =>
    cases unseen with
    | nil => exact ⟨rfl, rfl⟩
    | cons line rest => cases stopped
  | ⟨line, []⟩ :: path => cases stopped
  | ⟨line, other :: remaining⟩ :: path =>
    rw [step?_follow] at stopped
    split at stopped <;> cases stopped

/-- Running a sound traversal to its end keeps it sound and finishes every line. -/
theorem Sound.run (valid : dependencies.Valid)
    (excuse : ∀ line other, dependencies.Leads other line → excused line other)
    (sound : Sound dependencies excused traversal) :
    Sound dependencies excused (traversal.run dependencies) ∧
      (traversal.run dependencies).unseen = [] ∧ (traversal.run dependencies).path = [] := by
  induction traversal using Traversal.run.induct dependencies with
  | case1 traversal stopped =>
    rw [Traversal.run, stopped]
    exact ⟨sound, eq_nil_of_step?_eq_none stopped⟩
  | case2 traversal next stepped inductionHypothesis =>
    rw [Traversal.run, stepped]
    exact inductionHypothesis (sound.step valid excuse stepped)

/-- At the end every line is finished, after those it depends on unless they lead back to it. -/
theorem sound_complete (valid : dependencies.Valid) :
    Sound dependencies (fun line other => dependencies.Leads other line) (complete dependencies) ∧
      (complete dependencies).unseen = [] ∧ (complete dependencies).path = [] :=
  (sound_start dependencies _).run valid fun _ _ => id

/-- The lines of a sound traversal that is over are all finished. -/
theorem Sound.finished_perm (sound : Sound dependencies excused traversal)
    (unseen : traversal.unseen = []) (path : traversal.path = []) :
    traversal.finished.reverse.Perm (List.range dependencies.length) := by
  have places := sound.places
  rw [unseen, path] at places
  exact (List.reverse_perm _).trans places

/-- Every line in a settled list has those it depends on further down, unless there is an
excuse. -/
theorem Settled.of_append {finished : List Nat} (settled : Settled dependencies excused finished)
    {later earlier : List Nat} {line : Nat} (split : finished = later ++ line :: earlier) :
    ∀ other ∈ dependencies.of line, other ∈ earlier ∨ excused line other := by
  subst split
  induction later with
  | nil => exact settled.1
  | cons last later inductionHypothesis => exact inductionHypothesis settled.2

/-- In the order in which they are finished, those that a line depends on stand before it unless
there is an excuse. -/
theorem Sound.before_or_excused (sound : Sound dependencies excused traversal)
    {before rest : List Nat} {line : Nat}
    (split : traversal.finished.reverse = before ++ line :: rest) :
    ∀ other ∈ dependencies.of line, other ∈ before ∨ excused line other := by
  intro other depends
  have finished : traversal.finished = rest.reverse ++ line :: before.reverse := by
    rw [← List.reverse_reverse traversal.finished, split, List.reverse_append, List.reverse_cons,
      List.append_assoc, List.singleton_append]
  exact (sound.settled.of_append finished other depends).imp_left List.mem_reverse.mp

end Traversal

namespace Dependencies

variable {dependencies : Dependencies}

section IsOrder

variable {order : List Nat} {line other : Nat}

theorem IsOrder.exists_before (isOrder : dependencies.IsOrder order)
    (inside : line < dependencies.length) (depends : other ∈ dependencies.of line) :
    ∃ before rest, order = before ++ line :: rest ∧ line ∉ before ∧ other ∈ before := by
  have member : line ∈ order := isOrder.perm.mem_iff.mpr (List.mem_range.mpr inside)
  obtain ⟨before, rest, split, first⟩ := List.eq_append_cons_of_mem member
  exact ⟨before, rest, split, first, isOrder.after before line rest split other depends⟩

/-- A line that is split off a list stands after those before the split. -/
theorem idxOf_lt_of_split {before rest : List Nat} (split : order = before ++ line :: rest)
    (first : line ∉ before) (earlier : other ∈ before) : order.idxOf other < order.idxOf line :=
  calc order.idxOf other = before.idxOf other := by rw [split, List.idxOf_append_of_mem earlier]
    _ < before.length := List.idxOf_lt_length_of_mem earlier
    _ = order.idxOf line := by
      rw [split, List.idxOf_append_of_notMem first, List.idxOf_cons_self, Nat.add_zero]

/-- In an order of evaluation a line comes later than those it depends on. -/
theorem IsOrder.idxOf_lt (isOrder : dependencies.IsOrder order)
    (inside : line < dependencies.length) (depends : other ∈ dependencies.of line) :
    order.idxOf other < order.idxOf line := by
  obtain ⟨before, rest, split, first, earlier⟩ := isOrder.exists_before inside depends
  exact idxOf_lt_of_split split first earlier

theorem IsOrder.lt_length (isOrder : dependencies.IsOrder order)
    (inside : line < dependencies.length) (depends : other ∈ dependencies.of line) :
    other < dependencies.length := by
  obtain ⟨before, rest, split, _, earlier⟩ := isOrder.exists_before inside depends
  have member : other ∈ order := split ▸ List.mem_append_left _ earlier
  exact List.mem_range.mp (isOrder.perm.mem_iff.mp member)

end IsOrder

/-- The traversal finishes every line once. -/
theorem order_perm (valid : dependencies.Valid) :
    dependencies.order.Perm (List.range dependencies.length) := by
  obtain ⟨sound, unseen, path⟩ := Traversal.sound_complete valid
  exact sound.finished_perm unseen path

/-- Before a line the order has those it depends on, unless they lead back to it. -/
theorem before_or_leads (valid : dependencies.Valid) {before rest : List Nat} {line : Nat}
    (split : dependencies.order = before ++ line :: rest) : ∀ other ∈ dependencies.of line,
      other ∈ before ∨ dependencies.Leads other line :=
  (Traversal.sound_complete valid).1.before_or_excused split

end Dependencies

end UnitSheet
