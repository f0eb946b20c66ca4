/-
This file says that lines are not influenced by lines that they do not lead to.

The lines that a line leads to are closed under dependencies. Where two documents have the same
text on all of them, and every name stands for the same line, these lines correspond to themselves
in both worksheets. So they have the same outcomes, whatever is written on the other lines: these
may have errors of any kind, and be evaluated in any order.
-/

import UnitSheet.Proofs.Correspondence
import UnitSheet.Proofs.Totality

namespace UnitSheet.Sheet

variable {catalog : Catalog} {source changed : String} {sheet other : Sheet}

/-- A line of a compiled worksheet is made from the text at its place. -/
theorem line_of_compile (compiled : compile catalog source = .ok sheet) (index : Nat) :
    sheet.lines[index]? = (Text.sheetLines source)[index]?.map fun text =>
      Line.ofDraft catalog sheet.names (Draft.ofText text) := by
  rw [(compile_eq_ok_iff.mp compiled).1, ofDrafts, List.getElem?_map, List.getElem?_map,
    Option.map_map]
  rfl

/-- Lines with the same text correspond as long as the names stand for the same lines and all
lines that they depend on have the same text as well. -/
theorem corresponds_of_same_text (compiled : compile catalog source = .ok sheet)
    (recompiled : compile catalog changed = .ok other)
    (names : ∀ name, sheet.names.find? name = other.names.find? name) {kept : Nat → Prop}
    (texts : ∀ index, kept index →
      (Text.sheetLines source)[index]? = (Text.sheetLines changed)[index]?)
    (closed : ∀ index target, kept index → sheet.dependencies.DependsOn index target →
      kept target) :
    sheet.Corresponds other fun index place => index = place ∧ kept index where
  line := by
    rintro index _ ⟨rfl, isKept⟩ line found
    rw [line_of_compile compiled] at found
    obtain ⟨text, atIndex, rfl⟩ := Option.map_eq_some_iff.mp found
    refine ⟨Line.ofDraft catalog other.names (Draft.ofText text), ?_, ?_⟩
    · rw [line_of_compile recompiled, ← texts index isKept, atIndex]
      rfl
    · refine sameExpression_ofDraft (fun name => ?_) _
      rw [Table.mem_keys_iff, Table.mem_keys_iff, names]
  names := by
    rintro index _ ⟨rfl, isKept⟩ name target depends stands
    exact ⟨target, names name ▸ stands, rfl, closed index target isKept depends⟩

/-- Two documents without cycles in which every name stands for the same line have the same
outcome, a quantity or an error, on every line that has the same text in both together with all
lines that it leads to. -/
theorem outcome_of_same_texts (compiled : compile catalog source = .ok sheet)
    (recompiled : compile catalog changed = .ok other)
    (names : ∀ name, sheet.names.find? name = other.names.find? name) :
    ∃ outcomes others, run catalog source = .ok (sheet, outcomes) ∧
      run catalog changed = .ok (other, others) ∧
      ∀ index, (∀ target, sheet.dependencies.Leads index target →
          (Text.sheetLines source)[target]? = (Text.sheetLines changed)[target]?) →
        others[index]? = outcomes[index]? := by
  obtain ⟨outcomes, ran, settled⟩ := exists_run_of_compile compiled
  obtain ⟨others, reran, resettled⟩ := exists_run_of_compile recompiled
  refine ⟨outcomes, others, ran, reran, fun index texts => ?_⟩
  have corresponds := corresponds_of_same_text compiled recompiled names texts
    fun _ _ leads depends => leads.tail depends
  have same : other.lines[index]? = none ↔ sheet.lines[index]? = none := by
    rw [line_of_compile compiled, line_of_compile recompiled, ← texts index .refl,
      Option.map_eq_none_iff, Option.map_eq_none_iff]
  by_cases inside : index < sheet.lines.length
  · exact corresponds.outcome_eq (linked_of_compile compiled) settled resettled inside
      ⟨rfl, .refl⟩
  · have outside := List.getElem?_eq_none (Nat.le_of_not_lt inside)
    rw [settled.eq_none_iff.mpr outside, resettled.eq_none_iff.mpr (same.mpr outside)]

/-- A line keeps its outcome when the line after it, on which it does not depend, is replaced by
one that cannot be read. -/
theorem outcome_beside_misread : ∃ sheet other outcomes others,
    run Catalog.builtin "x: 2\ny: x * 3\nz: 1 / 0" = .ok (sheet, outcomes) ∧
    run Catalog.builtin "x: 2\ny: x * 3\nz: )" = .ok (other, others) ∧
    others[1]? = outcomes[1]? := by
  have before : Text.sheetLines "x: 2\ny: x * 3\nz: 1 / 0" =
      ["x: 2".toList, "y: x * 3".toList, "z: 1 / 0".toList] := by cbv
  have after : Text.sheetLines "x: 2\ny: x * 3\nz: )" =
      ["x: 2".toList, "y: x * 3".toList, "z: )".toList] := by cbv
  have depends : Draft.dependencies
      ((Text.sheetLines "x: 2\ny: x * 3\nz: 1 / 0").map Draft.ofText) = [[], [0], []] := by cbv
  have redepends : Draft.dependencies
      ((Text.sheetLines "x: 2\ny: x * 3\nz: )").map Draft.ofText) = [[], [0], []] := by cbv
  have names : Draft.declarations
        ((Text.sheetLines "x: 2\ny: x * 3\nz: 1 / 0").map Draft.ofText) =
      Draft.declarations ((Text.sheetLines "x: 2\ny: x * 3\nz: )").map Draft.ofText) := by cbv
  have acyclic : Dependencies.isCyclic [[], [0], []] = false := by cbv
  have compiled : compile Catalog.builtin "x: 2\ny: x * 3\nz: 1 / 0" = .ok _ :=
    compile_eq_ok_iff.mpr ⟨rfl, by rw [dependencies_ofDrafts, depends, acyclic]⟩
  have recompiled : compile Catalog.builtin "x: 2\ny: x * 3\nz: )" = .ok _ :=
    compile_eq_ok_iff.mpr ⟨rfl, by rw [dependencies_ofDrafts, redepends, acyclic]⟩
  obtain ⟨outcomes, others, ran, reran, same⟩ :=
    outcome_of_same_texts compiled recompiled fun name => congrArg (Table.find? · name) names
  refine ⟨_, _, outcomes, others, ran, reran, same 1 fun target leads => ?_⟩
  have early : target < 2 := by
    rw [dependencies_ofDrafts, depends] at leads
    induction leads with
    | refl => exact Nat.one_lt_two
    | @tail line target _ next _ =>
      rcases line with _ | _ | _ | line
      all_goals simp [Dependencies.DependsOn, Dependencies.of] at next
      omega
  rw [before, after]
  rcases target with _ | _ | target
  · rfl
  · rfl
  · omega

end UnitSheet.Sheet
