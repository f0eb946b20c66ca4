/-
This file opens computations that may fail.

A computation in steps has a result when every step has one (`bind_eq_ok`), and does not fail for
a cause that no step fails for (`Avoids.bind`). Lines that are
nested too deeply are a case of their own wherever lines are read: `Gives` says that a result
is the expected one as far as depth allows.
-/

import Mathlib.Data.List.Forall2
import UnitSheet.Expression.Error

namespace UnitSheet

/-- Two steps have a result when the first has one and the second has one after it. -/
theorem bind_eq_ok {ε α β : Type} {action : Except ε α} {next : α → Except ε β} {result : β} :
    (action >>= next) = .ok result ↔ ∃ value, action = .ok value ∧ next value = .ok result := by
  cases action with
  | ok value =>
    constructor
    · intro equal
      exact ⟨value, rfl, equal⟩
    · rintro ⟨_, ⟨⟩, equal⟩
      exact equal
  | error cause =>
    constructor
    · intro equal
      cases equal
    · rintro ⟨_, ⟨⟩, _⟩

/-- Naming the cause of a failure in other words changes no result. -/
theorem mapError_eq_ok {ε δ α : Type} {action : Except ε α} {change : ε → δ} {result : α} :
    action.mapError change = .ok result ↔ action = .ok result := by
  cases action with
  | ok value =>
    constructor
    · intro equal
      cases equal
      rfl
    · intro equal
      cases equal
      rfl
  | error cause =>
    constructor
    · intro equal
      cases equal
    · intro equal
      cases equal

theorem mapError_eq_error {ε δ α : Type} {action : Except ε α} {change : ε → δ} {cause : δ} :
    action.mapError change = .error cause ↔
      ∃ original, action = .error original ∧ change original = cause := by
  cases action with
  | ok value => simp [Except.mapError]
  | error original => simp [Except.mapError]

/-- A result is what is left when the cause of a failure is forgotten. -/
theorem toOption_eq_some_iff {ε α : Type} {result : Except ε α} {value : α} :
    result.toOption = some value ↔ result = .ok value := by
  cases result with
  | ok known => simp [Except.toOption]
  | error cause => simp [Except.toOption]

/-- Several computations have results when each of them has one. -/
theorem mapM_eq_ok_iff {ε α β : Type} {action : α → Except ε β} {inputs : List α}
    {results : List β} :
    inputs.mapM action = .ok results ↔
      List.Forall₂ (fun input result => action input = .ok result) inputs results := by
  induction inputs generalizing results with
  | nil =>
    rw [List.mapM_nil, List.forall₂_nil_left_iff]
    exact ⟨fun equal => (Except.ok.inj equal).symm, fun equal => equal ▸ rfl⟩
  | cons first rest inductionHypothesis =>
    simp only [List.mapM_cons, bind_eq_ok, inductionHypothesis, List.forall₂_cons_left_iff]
    constructor
    · rintro ⟨value, atFirst, others, atRest, same⟩
      exact ⟨value, others, atFirst, atRest, (Except.ok.inj same).symm⟩
    · rintro ⟨value, others, atFirst, atRest, rfl⟩
      exact ⟨value, atFirst, others, atRest, rfl⟩

/-- Every result of several computations is that of one of them. -/
theorem exists_of_mem_mapM {ε α β : Type} {action : α → Except ε β} {inputs : List α}
    {results : List β} (equal : inputs.mapM action = .ok results) {result : β}
    (member : result ∈ results) : ∃ input ∈ inputs, action input = .ok result := by
  induction inputs generalizing results with
  | nil =>
    cases equal
    cases member
  | cons first rest inductionHypothesis =>
    rw [List.mapM_cons] at equal
    obtain ⟨atFirst, firstEqual, equal⟩ := bind_eq_ok.mp equal
    obtain ⟨others, restEqual, equal⟩ := bind_eq_ok.mp equal
    cases equal
    rcases List.mem_cons.mp member with rfl | member
    · exact ⟨first, List.mem_cons_self, firstEqual⟩
    · obtain ⟨input, among, inputEqual⟩ := inductionHypothesis restEqual member
      exact ⟨input, List.mem_cons_of_mem _ among, inputEqual⟩

/-- Several computations have results if each of them has one. -/
theorem exists_mapM_iff {ε α β : Type} {action : α → Except ε β} {inputs : List α} :
    (∃ results, inputs.mapM action = .ok results) ↔
      ∀ input ∈ inputs, ∃ result, action input = .ok result := by
  induction inputs with
  | nil => exact iff_of_true ⟨[], rfl⟩ (by simp)
  | cons first rest inductionHypothesis =>
    rw [List.forall_mem_cons, ← inductionHypothesis]
    simp only [List.mapM_cons, bind_eq_ok]
    constructor
    · rintro ⟨_, value, atFirst, others, atRest, _⟩
      exact ⟨⟨value, atFirst⟩, others, atRest⟩
    · rintro ⟨⟨value, atFirst⟩, others, atRest⟩
      exact ⟨_, value, atFirst, others, atRest, rfl⟩

/-- Computations one after the other fail for the cause of the first that fails. -/
theorem mapM_eq_error_iff {ε α β : Type} {action : α → Except ε β} {inputs : List α} {cause : ε} :
    inputs.mapM action = .error cause ↔ ∃ before input after, inputs = before ++ input :: after ∧
      (∀ earlier ∈ before, ∃ result, action earlier = .ok result) ∧
      action input = .error cause := by
  induction inputs with
  | nil => simp [pure, Except.pure]
  | cons first rest inductionHypothesis =>
    rw [List.mapM_cons]
    cases own : action first with
    | error known =>
      constructor
      · intro equal
        cases equal
        exact ⟨[], first, rest, rfl, by simp, own⟩
      · rintro ⟨before, input, after, split, results, failed⟩
        cases before with
        | nil =>
          cases split
          rw [own] at failed
          cases failed
          rfl
        | cons earlier before =>
          cases split
          obtain ⟨result, known⟩ := results first List.mem_cons_self
          cases own.symm.trans known
    | ok value =>
      have restFails : (do let others ← rest.mapM action; return value :: others) =
          (.error cause : Except ε (List β)) ↔ rest.mapM action = .error cause := by
        cases rest.mapM action with
        | ok others => exact iff_of_false nofun nofun
        | error known => exact ⟨fun equal => by cases equal; rfl, fun equal => by cases equal; rfl⟩
      refine restFails.trans (inductionHypothesis.trans ⟨?_, ?_⟩)
      · rintro ⟨before, input, after, rfl, results, failed⟩
        exact ⟨first :: before, input, after, rfl,
          List.forall_mem_cons.mpr ⟨⟨value, own⟩, results⟩, failed⟩
      · rintro ⟨before, input, after, split, results, failed⟩
        cases before with
        | nil =>
          cases split
          cases own.symm.trans failed
        | cons earlier before =>
          cases split
          exact ⟨before, input, after, rfl, (List.forall_mem_cons.mp results).2, failed⟩

/-! ### Failures that do not happen -/

/-- A computation does not fail for the given cause. -/
def Avoids {ε α : Type} (cause : ε) (action : Except ε α) : Prop :=
  action ≠ .error cause

theorem avoids_ok {ε α : Type} (cause : ε) (value : α) : Avoids cause (.ok value) :=
  nofun

theorem Avoids.bind {ε α β : Type} {cause : ε} {action : Except ε α} {next : α → Except ε β}
    (first : Avoids cause action) (second : ∀ value, Avoids cause (next value)) :
    Avoids cause (action >>= next) := by
  cases action with
  | ok value => exact second value
  | error other =>
    intro equal
    cases equal
    exact first rfl

theorem Avoids.mapError {ε δ α : Type} {cause : ε} {action : Except ε α} {change : ε → δ}
    (injective : ∀ other, change other = change cause → other = cause)
    (avoids : Avoids cause action) : Avoids (change cause) (action.mapError change) := by
  cases action with
  | ok value => exact avoids_ok _ value
  | error other =>
    intro equal
    exact avoids (congrArg Except.error (injective other (Except.error.inj equal)))

/-! ### Results as far as depth allows -/

/-- The result is the given one, unless the line is nested too deeply. -/
def Gives {α : Type} (result : Except ParseError α) (value : α) : Prop :=
  result = .ok value ∨ result = .error .nestedTooDeeply

namespace Gives

variable {α β : Type}

theorem ok (value : α) : Gives (.ok value) value :=
  .inl rfl

theorem tooDeep (value : α) : Gives (.error .nestedTooDeeply) value :=
  .inr rfl

/-- Steps that give their results give the result of all. -/
theorem bind {action : Except ParseError α} {next : α → Except ParseError β} {value : α}
    {result : β} (first : Gives action value) (second : Gives (next value) result) :
    Gives (action >>= next) result := by
  rcases first with rfl | rfl
  · exact second
  · exact tooDeep result

/-- When the line is not nested too deeply, what is given is the result. -/
theorem eq_ok {result : Except ParseError α} {value : α} (gives : Gives result value)
    (shallow : result ≠ .error .nestedTooDeeply) : result = .ok value :=
  gives.resolve_right shallow

end Gives

end UnitSheet
