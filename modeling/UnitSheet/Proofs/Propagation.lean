/-
This file says how failures of lines spread.

Evaluation is strict: every part of a tree that has a value has a value itself
(`Node.exists_value_of_within`). A name has no value unless its line has an expression and a value,
so a line with a value leads through the names in trees to lines with values only, along chains of
any length; no value ever rests on the zero that a failed or blank line holds. In the other
direction, an operation never fails for a name (`confined_unblamed`), so a line that blames a name
has it in its tree, and the line of that name has failed or is blank.
-/

import UnitSheet.Proofs.Totality

namespace UnitSheet

/-! ### Parts of a tree -/

namespace Node

variable {meaning : String → Evaluated (Quantity Float)} {tree inner : Node}
  {refers : String → Prop} {given : CompoundUnit Float → Prop}

theorem exists_value_of_child {quantity : Quantity Float}
    (evaluated : tree.evaluate meaning = .ok quantity) {child : Node}
    (member : child ∈ tree.children) : ∃ value, child.evaluate meaning = .ok value := by
  unfold evaluate at evaluated
  split at evaluated
  · cases member
  · cases member
  · cases member
  · obtain ⟨value, item, _⟩ := bind_eq_ok.mp evaluated
    rw [List.mem_singleton.mp member]
    exact ⟨value, item⟩
  · obtain ⟨first, atLeft, rest⟩ := bind_eq_ok.mp evaluated
    obtain ⟨second, atRight, _⟩ := bind_eq_ok.mp rest
    rcases List.mem_cons.mp member with rfl | member
    · exact ⟨first, atLeft⟩
    · rw [List.mem_singleton.mp member]
      exact ⟨second, atRight⟩
  · obtain ⟨value, argument, _⟩ := bind_eq_ok.mp evaluated
    rw [List.mem_singleton.mp member]
    exact ⟨value, argument⟩
  · cases evaluated

/-- Every part of a tree that has a value has one. -/
theorem exists_value_of_within (within : Within inner tree) {quantity : Quantity Float}
    (evaluated : tree.evaluate meaning = .ok quantity) :
    ∃ value, inner.evaluate meaning = .ok value := by
  induction within generalizing quantity with
  | here => exact ⟨quantity, evaluated⟩
  | inside member _ inductionHypothesis =>
    obtain ⟨value, child⟩ := exists_value_of_child evaluated member
    exact inductionHypothesis child

/-- The names that an expression may use can be narrowed down to those that stand in it. -/
theorem Expression.narrow (expression : tree.Expression refers given) :
    tree.Expression (fun name => Within (.reference name) tree) given := by
  induction expression with
  | number text => exact .number text
  | reference _ => exact .reference .here
  | constant known => exact .constant known
  | function known _ argument =>
    exact .function known (argument.mono fun _ => .inside List.mem_cons_self)
  | operation known _ _ left right =>
    refine .operation known (left.mono fun _ => .inside List.mem_cons_self) ?_
    exact right.mono fun _ => .inside (List.mem_cons_of_mem _ List.mem_cons_self)
  | group unit _ item => exact .group unit (item.mono fun _ => .inside List.mem_cons_self)

end Node

/-! ### Failures that are about a name -/

variable {failure : Failure} {name : String}

/-- No operation fails for a name. -/
theorem confined_unblamed (about : failure.name? = some name) :
    Confined (fun _ => True) (fun other => other ≠ failure) := by
  have ordinary : ∀ error, Failure.conversion error ≠ failure := by
    rintro error rfl
    cases about
  constructor
  case unmultiplied => exact fun _ _ error _ _ _ => ordinary error
  case unconverted => exact fun _ _ error _ _ _ => ordinary error
  case angle => exact fun _ error _ => ordinary error
  case arithmetic => exact fun cause _ => ordinary (.arithmetic cause)
  case other =>
    rintro other _ unnamed rfl
    cases unnamed.symm.trans about
  all_goals intros; trivial

namespace Evaluated

variable {α : Type} {good : α → Prop} {allowed : Failure → Prop} {evaluated : Evaluated α}

theorem Yields.avoids (yields : Yields good (fun other => other ≠ failure) evaluated) :
    Avoids (.failure failure) evaluated := by
  rintro rfl
  exact yields rfl

theorem Yields.avoiding (yields : Yields good allowed evaluated)
    (avoids : Avoids (.failure failure) evaluated) :
    Yields good (fun other => other ≠ failure) evaluated := by
  match evaluated with
  | .ok value => exact yields
  | .error (.failure other) =>
    rintro rfl
    exact avoids rfl

end Evaluated

/-- An expression fails for a name only where one of its names does. -/
theorem Node.Expression.avoids_evaluate {meaning : String → Evaluated (Quantity Float)}
    {tree : Node} {refers : String → Prop} {given : CompoundUnit Float → Prop}
    {allowed : Failure → Prop} (about : failure.name? = some name)
    (names : ∀ used, refers used → Evaluated.Yields (fun _ => True) allowed (meaning used))
    (blameless : ∀ used, refers used → Avoids (.failure failure) (meaning used))
    (expression : tree.Expression refers given) :
    Avoids (.failure failure) (tree.evaluate meaning) := by
  have yields := expression.yields_evaluate (confined_unblamed about) (fun _ _ => trivial)
    fun used known => (names used known).avoiding (blameless used known)
  exact yields.avoids

/-! ### Lines -/

namespace Sheet

variable {catalog : Catalog} {source : String} {sheet : Sheet} {outcomes : List Outcome}
  {index target : Nat}

/-- A name stands in the tree of a line. -/
def Uses (sheet : Sheet) (index : Nat) (name : String) : Prop :=
  ∃ line tree, sheet.lines[index]? = some line ∧ line.tree = .ok tree ∧
    Node.Within (.reference name) tree

/-- The tree of a line has the name of another line in it. -/
def References (sheet : Sheet) (index target : Nat) : Prop :=
  ∃ name, sheet.Uses index name ∧ sheet.names.find? name = some target

/-- A line has an expression, and no error. -/
def HasValue (sheet : Sheet) (outcomes : List Outcome) (index : Nat) : Prop :=
  ∃ line quantity, sheet.lines[index]? = some line ∧ line.isBlank = false ∧
    outcomes[index]? = some (.ok quantity)

/-- A line has an error. -/
def HasError (outcomes : List Outcome) (index : Nat) : Prop :=
  ∃ error, outcomes[index]? = some (.error error)

/-- A line has no expression. -/
def IsBlankAt (sheet : Sheet) (index : Nat) : Prop :=
  ∃ line, sheet.lines[index]? = some line ∧ line.isBlank = true

/-- The value of a name is that of its line, which has an expression. -/
theorem exists_of_meaning_eq_ok {name : String} {quantity : Quantity Float}
    (known : sheet.meaning outcomes name = .ok quantity) : ∃ target line,
      sheet.names.find? name = some target ∧ sheet.lines[target]? = some line ∧
        line.isBlank = false ∧ outcomes[target]? = some (.ok quantity) := by
  unfold meaning at known
  split at known
  · cases known
  · rename_i target stands
    split at known
    · rename_i line outcome found has
      split at known
      · cases known
      · split at known
        · cases known
        · rename_i notBlank
          cases known
          exact ⟨target, line, stands, found, Bool.eq_false_iff.mpr notBlank, has⟩
    · cases known

/-- A name has a value only if its line has one. -/
theorem hasValue_of_meaning {name : String} {quantity : Quantity Float}
    (stands : sheet.names.find? name = some target)
    (known : sheet.meaning outcomes name = .ok quantity) : sheet.HasValue outcomes target := by
  obtain ⟨_, line, same, found, some, has⟩ := exists_of_meaning_eq_ok known
  cases stands.symm.trans same
  exact ⟨line, quantity, found, some, has⟩

/-- The value of a line is that of its tree. -/
theorem Settled.exists_evaluate_eq (settled : sheet.Settled outcomes)
    (hasValue : sheet.HasValue outcomes index) : ∃ line tree quantity,
      sheet.lines[index]? = some line ∧ line.tree = .ok tree ∧
        tree.evaluate (sheet.meaning outcomes) = .ok quantity := by
  obtain ⟨line, quantity, found, some, has⟩ := hasValue
  obtain ⟨outcome, same, equal⟩ := settled.settled index line found
  cases has.symm.trans same
  obtain ⟨tree, read, evaluated⟩ := Line.exists_tree_of_outcome some equal
  exact ⟨line, tree, quantity, found, read, evaluated⟩

/-- A line with a value refers to lines with values. -/
theorem Settled.hasValue_of_references (settled : sheet.Settled outcomes)
    (hasValue : sheet.HasValue outcomes index) (references : sheet.References index target) :
    sheet.HasValue outcomes target := by
  obtain ⟨line, tree, quantity, found, read, evaluated⟩ := settled.exists_evaluate_eq hasValue
  obtain ⟨name, ⟨_, _, same, equal, within⟩, stands⟩ := references
  cases found.symm.trans same
  cases read.symm.trans equal
  obtain ⟨value, known⟩ := Node.exists_value_of_within within evaluated
  exact hasValue_of_meaning stands known

theorem Settled.hasValue_of_leads (settled : sheet.Settled outcomes)
    (hasValue : sheet.HasValue outcomes index)
    (leads : Relation.ReflTransGen sheet.References index target) :
    sheet.HasValue outcomes target := by
  induction leads with
  | refl => exact hasValue
  | tail _ references inductionHypothesis =>
    exact settled.hasValue_of_references inductionHypothesis references

/-- A line with an error or without an expression has no value. -/
theorem not_hasValue (without : HasError outcomes index ∨ sheet.IsBlankAt index) :
    ¬ sheet.HasValue outcomes index := by
  rintro ⟨line, quantity, found, some, has⟩
  rcases without with ⟨error, known⟩ | ⟨_, same, blank⟩
  · cases has.symm.trans known
  · cases found.symm.trans same
    rw [blank] at some
    cases some

/-- A line in whose tree a name stands has a value, or an error of its evaluation. -/
theorem Settled.value_or_failure (compiled : compile catalog source = .ok sheet)
    (settled : sheet.Settled outcomes) {name : String} (uses : sheet.Uses index name) :
    sheet.HasValue outcomes index ∨
      ∃ failure, outcomes[index]? = some (.error (.evaluation failure)) := by
  obtain ⟨line, tree, found, read, within⟩ := uses
  have some : line.isBlank = false := by
    refine Bool.eq_false_iff.mpr fun blank => ?_
    rw [eq_blank_of_compile compiled (List.mem_of_getElem? found) blank read] at within
    exact Node.not_within_blank name within
  obtain ⟨outcome, has, equal⟩ := settled.settled index line found
  rw [Line.outcome_eq_outcomeOf some read] at equal
  unfold outcomeOf at equal
  split at equal <;> cases equal
  · exact .inl ⟨line, _, found, some, has⟩
  · exact .inr ⟨_, has⟩

/-- A name fails for itself, because of its line. -/
theorem exists_of_meaning_eq_error {failure : Failure} {name : String}
    (failed : sheet.meaning outcomes name = .error (.failure failure)) :
    failure.name? = some name ∧ ∃ target, sheet.names.find? name = some target ∧
      (failure = .failedReference name ∧ HasError outcomes target ∨
        failure = .blankReference name ∧ sheet.IsBlankAt target) := by
  unfold meaning at failed
  split at failed
  · cases failed
  · rename_i target stands
    split at failed
    · rename_i line outcome found has
      split at failed
      · rename_i error
        cases failed
        exact ⟨rfl, target, stands, .inl ⟨rfl, error, has⟩⟩
      · split at failed
        · rename_i blank
          cases failed
          exact ⟨rfl, target, stands, .inr ⟨rfl, line, found, blank⟩⟩
        · cases failed
    · cases failed

/-- A line that blames a name has it in its tree, and the line of the name is to blame. -/
theorem Settled.exists_blamed (compiled : compile catalog source = .ok sheet)
    (settled : sheet.Settled outcomes) {failure : Failure} {name : String}
    (has : outcomes[index]? = some (.error (.evaluation failure)))
    (about : failure.name? = some name) : ∃ target, sheet.Uses index name ∧
      sheet.names.find? name = some target ∧
      (failure = .failedReference name ∧ HasError outcomes target ∨
        failure = .blankReference name ∧ sheet.IsBlankAt target) := by
  have inside := settled.length ▸ (List.getElem?_eq_some_iff.mp has).1
  have found := List.getElem?_eq_getElem inside
  generalize sheet.lines[index] = line at found
  obtain ⟨_, same, equal⟩ := settled.settled index line found
  cases has.symm.trans same
  rcases line.idle_or_tree with idle | ⟨tree, some, read⟩
  · rw [idle.outcome_eq, Line.unevaluated] at equal
    split at equal <;> cases equal
  rw [Line.outcome_eq_outcomeOf some read] at equal
  have failed := eq_error_of_outcomeOf equal
  have member := List.mem_of_getElem? found
  have expression := (expression_of_compile compiled member some read).narrow
  have names : ∀ used, Node.Within (.reference used) tree → Evaluated.Yields (fun _ => True)
      (fun _ => True) (sheet.meaning outcomes used) := by
    intro used within
    obtain ⟨target, _, stands⟩ := refers_of_within compiled member read within
    exact (linked_of_compile compiled).yields_meaning tame_true settled.length stands
      fun _ _ => trivial
  obtain ⟨used, within, blamed⟩ : ∃ used, Node.Within (.reference used) tree ∧
      sheet.meaning outcomes used = .error (.failure failure) := by
    by_contra none
    refine expression.avoids_evaluate about names (fun used within blamed => ?_) failed
    exact none ⟨used, within, blamed⟩
  obtain ⟨itself, target, stands, blame⟩ := exists_of_meaning_eq_error blamed
  cases about.symm.trans itself
  exact ⟨target, ⟨line, tree, found, read, within⟩, stands, blame⟩

/-- Failures spread along the names in trees, and only along them. A line with a value leads to
lines with values alone. A line that leads to one with an error or without an expression, directly
or through other lines, ends with an error of its evaluation. An error that is about a name is
about one in the tree of the line, of which the line has an error or no expression. -/
theorem failures_follow_references (ran : run catalog source = .ok (sheet, outcomes)) :
    (∀ index target, sheet.HasValue outcomes index →
      Relation.ReflTransGen sheet.References index target → sheet.HasValue outcomes target) ∧
    (∀ index target, Relation.TransGen sheet.References index target →
      HasError outcomes target ∨ sheet.IsBlankAt target →
        ∃ failure, outcomes[index]? = some (.error (.evaluation failure))) ∧
    (∀ (index : Nat) (failure : Failure) (name : String),
      outcomes[index]? = some (.error (.evaluation failure)) → failure.name? = some name →
        ∃ target, sheet.Uses index name ∧ sheet.names.find? name = some target ∧
          (failure = .failedReference name ∧ HasError outcomes target ∨
            failure = .blankReference name ∧ sheet.IsBlankAt target)) := by
  have compiled := (run_eq_ok_iff.mp ran).1
  have settled := settled_of_run ran
  refine ⟨fun _ _ => settled.hasValue_of_leads, fun index target leads without => ?_,
    fun _ _ _ => settled.exists_blamed compiled⟩
  obtain ⟨_, ⟨_, uses, _⟩, _⟩ := Relation.TransGen.head'_iff.mp leads
  refine (settled.value_or_failure compiled uses).resolve_left fun hasValue => ?_
  exact not_hasValue without (settled.hasValue_of_leads hasValue leads.to_reflTransGen)

theorem uses_of_tree {name : String} {tree : Node}
    (read : sheet.lines[index]?.map Line.tree = some (.ok tree))
    (within : Node.Within (.reference name) tree) : sheet.Uses index name := by
  obtain ⟨line, found, equal⟩ := Option.map_eq_some_iff.mp read
  exact ⟨line, tree, found, equal, within⟩

/-- The blank declaration of a name fails a line two references away. -/
theorem failure_behind_blank : ∃ sheet outcomes,
    run Catalog.builtin "z:\ny: z\nx: y + 1" = .ok (sheet, outcomes) ∧
    Relation.TransGen sheet.References 2 0 ∧ sheet.IsBlankAt 0 ∧
    ∃ failure, outcomes[2]? = some (.error (.evaluation failure)) := by
  have acyclic : (ofDrafts Catalog.builtin
      ((Text.sheetLines "z:\ny: z\nx: y + 1").map Draft.ofText)).dependencies.isCyclic =
        false := by
    rw [dependencies_ofDrafts]
    cbv
  -- The units of the catalogue are left open: none of them is used.
  have computed (catalog : Catalog) :
      let sheet := ofDrafts catalog ((Text.sheetLines "z:\ny: z\nx: y + 1").map Draft.ofText)
      sheet.lines[2]?.map Line.tree = some (.ok (.group "" [.operation "+"
        [.reference "y", .number "1"]] CompoundUnit.empty)) ∧
      sheet.lines[1]?.map Line.tree = some (.ok (.group "" [.reference "z"]
        CompoundUnit.empty)) ∧
      sheet.lines[0]?.map Line.isBlank = some true ∧
      sheet.names = ⟨[("z", 0), ("y", 1), ("x", 2)]⟩ := by
    refine ⟨?_, ?_, ?_, ?_⟩ <;> cbv
  obtain ⟨atTwo, atOne, blank, names⟩ := computed Catalog.builtin
  obtain ⟨outcomes, ran, _⟩ := exists_run_of_compile (compile_eq_ok_iff.mpr ⟨rfl, acyclic⟩)
  have usesY := uses_of_tree atTwo (.inside List.mem_cons_self (.inside List.mem_cons_self .here))
  have usesZ := uses_of_tree atOne (.inside List.mem_cons_self .here)
  have toOne : References _ 2 1 := ⟨"y", usesY, by rw [names]; decide⟩
  have toZero : References _ 1 0 := ⟨"z", usesZ, by rw [names]; decide⟩
  have leads := Relation.TransGen.tail (.single toOne) toZero
  have without := Option.map_eq_some_iff.mp blank
  obtain ⟨_, fails, _⟩ := failures_follow_references ran
  exact ⟨_, outcomes, ran, leads, without, fails 2 0 leads (.inr without)⟩

end Sheet

end UnitSheet
