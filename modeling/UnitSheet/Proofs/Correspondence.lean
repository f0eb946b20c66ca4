/-
This file compares the outcomes of two worksheets.

Lines of two worksheets correspond when they have the same expression and the names in it stand
for lines that correspond in turn. Then they have the same outcome (`Corresponds.outcome_eq`),
wherever they stand, in whatever order the lines are evaluated, and whatever the other lines
are. Reading a line gives the same expression for the same catalogue and the same declared names,
in whatever order these were declared.
-/

import UnitSheet.Proofs.Settled

namespace UnitSheet

/-! ### What reading a line depends on -/

namespace Vocabulary

/-- Two vocabularies have the same catalogue and the same names. -/
structure Agrees (vocabulary other : Vocabulary) : Prop where
  declared : ∀ name, name ∈ vocabulary.declared ↔ name ∈ other.declared
  catalog : vocabulary.catalog = other.catalog

variable {vocabulary other : Vocabulary}

theorem Agrees.readName_eq (agrees : vocabulary.Agrees other) :
    Reading.readName vocabulary = Reading.readName other := by
  funext reading name
  have declared : vocabulary.declared.contains name = other.declared.contains name := by
    rw [Bool.eq_iff_iff, List.contains_iff_mem, List.contains_iff_mem]
    exact agrees.declared name
  unfold Reading.readName
  rw [declared]

theorem Agrees.step_eq (agrees : vocabulary.Agrees other) :
    Reading.step vocabulary = Reading.step other := by
  funext reading token
  simp only [Reading.step, Reading.readToken, Reading.readUnitToken, agrees.readName_eq,
    agrees.catalog]

theorem Agrees.ofLine_eq (agrees : vocabulary.Agrees other) (tokens : List Token) :
    Node.ofLine vocabulary tokens = Node.ofLine other tokens := by
  simp only [Node.ofLine, Node.ofTokens, agrees.step_eq]

end Vocabulary

namespace Sheet

variable {catalog : Catalog} {sheet other : Sheet} {outcomes others : List Outcome}

/-- Two lines have the same expression, if they have any. -/
structure Line.SameExpression (line other : Line) : Prop where
  tree : line.tree = other.tree
  blank : line.isBlank = other.isBlank

theorem Line.SameExpression.outcome_eq {line other : Line} (same : line.SameExpression other)
    (meaning : String → Evaluated (Quantity Float)) :
    line.outcome meaning = other.outcome meaning := by
  unfold Line.outcome
  rw [same.tree, same.blank]

/-- The lines of drafts that differ in the names of other lines only have the same expression. -/
theorem sameExpression_ofDraft {names others : Table Nat}
    (declared : ∀ name, name ∈ names.keys ↔ name ∈ others.keys) (draft : Draft) :
    (Line.ofDraft catalog names draft).SameExpression (Line.ofDraft catalog others draft) where
  tree := by
    have agrees : Vocabulary.Agrees ⟨names.keys, catalog⟩ ⟨others.keys, catalog⟩ := ⟨declared, rfl⟩
    simp only [Line.ofDraft, agrees.ofLine_eq]
  blank := rfl

/-! ### Lines that correspond -/

/-- A relation between the lines of two worksheets: related lines have the same expression, and
the names among what they depend on stand for related lines. -/
structure Corresponds (sheet other : Sheet) (relates : Nat → Nat → Prop) : Prop where
  line : ∀ index place, relates index place → ∀ line, sheet.lines[index]? = some line →
    ∃ counterpart, other.lines[place]? = some counterpart ∧ line.SameExpression counterpart
  names : ∀ index place, relates index place → ∀ name, ∀ target ∈ sheet.dependencies.of index,
    sheet.names.find? name = some target →
      ∃ found, other.names.find? name = some found ∧ relates target found

variable {relates : Nat → Nat → Prop}

/-- A name stands for the same quantity in both worksheets if its lines have the same outcome. -/
theorem Corresponds.meaning_eq (corresponds : sheet.Corresponds other relates) {name : String}
    {index place : Nat} (inside : index < sheet.lines.length) (related : relates index place)
    (stands : sheet.names.find? name = some index) (found : other.names.find? name = some place)
    (same : others[place]? = outcomes[index]?) :
    sheet.meaning outcomes name = other.meaning others name := by
  have atIndex := List.getElem?_eq_getElem inside
  obtain ⟨counterpart, atPlace, expression⟩ := corresponds.line index place related _ atIndex
  simp only [meaning, stands, found, atIndex, atPlace, same]
  cases outcomes[index]? with
  | none => rfl
  | some outcome => simp only [expression.blank]

/-- Lines that correspond have the same outcome. -/
theorem Corresponds.outcome_eq (corresponds : sheet.Corresponds other relates)
    (linked : sheet.Linked catalog) (settled : sheet.Settled outcomes)
    (otherSettled : other.Settled others) {index place : Nat} (inside : index < sheet.lines.length)
    (related : relates index place) : others[place]? = outcomes[index]? := by
  -- Along the order of the first worksheet alone: nothing is asked of the order of the other.
  refine linked.induction (motive := fun index => ∀ place, relates index place →
    others[place]? = outcomes[index]?) (fun index line found known place related => ?_) inside
    place related
  obtain ⟨counterpart, atPlace, expression⟩ := corresponds.line index place related line found
  obtain ⟨outcome, has, given⟩ := settled.settled index line found
  obtain ⟨otherOutcome, otherHas, otherGiven⟩ :=
    otherSettled.settled place counterpart atPlace
  have agree : ∀ name, sheet.Refers line name →
      sheet.meaning outcomes name = other.meaning others name := by
    rintro name ⟨target, depends, stands⟩
    have dependsOn := (of_dependencies found).symm ▸ depends
    obtain ⟨there, otherStands, targets⟩ :=
      corresponds.names index place related name target dependsOn stands
    exact corresponds.meaning_eq (linked.inside name target stands) targets stands otherStands
      (known target depends there targets)
  rw [linked.outcome_eq_of_agree (List.mem_of_getElem? found) agree, expression.outcome_eq,
    otherGiven] at given
  rw [has, otherHas, Except.ok.inj given]

end Sheet

end UnitSheet
