/-
This file moves the lines of a document to other places.

As long as no name is declared twice, a name stands for the one line that declares it, wherever
that line is. So the places of lines are renamed throughout: in the table of names, in what
lines depend on, and in every chain of dependencies. A cycle stays a cycle, and the lines of
both documents correspond, which gives them the same outcomes.
-/

import UnitSheet.Proofs.Correspondence
import UnitSheet.Proofs.Cycles
import UnitSheet.Proofs.Totality

namespace UnitSheet

/-! ### Moved elements -/

/-- A list has the elements of another one at other places: at every index stands the element
that stands at the place of the index in the other list. -/
def Rearranges {α : Type} (place : Equiv.Perm Nat) (items moved : List α) : Prop :=
  ∀ index, moved[index]? = items[place index]?

namespace Rearranges

variable {α β : Type} {place : Equiv.Perm Nat} {items moved : List α}

theorem map (rearranges : Rearranges place items moved) (change : α → β) :
    Rearranges place (items.map change) (moved.map change) := by
  intro index
  rw [List.getElem?_map, List.getElem?_map, rearranges index]

theorem symm (rearranges : Rearranges place items moved) :
    Rearranges place.symm moved items := by
  intro index
  rw [rearranges, Equiv.apply_symm_apply]

end Rearranges

/-! ### Names and dependencies -/

namespace Draft

/-- A line declares a name. -/
def Declares (drafts : List Draft) (name : String) (index : Nat) : Prop :=
  ∃ draft, drafts[index]? = some draft ∧ draft.name = some name

/-- No two lines declare the same name. -/
def DeclaresOnce (drafts : List Draft) : Prop :=
  ∀ name first second, Declares drafts name first → Declares drafts name second → first = second

variable {drafts moved : List Draft} {place : Equiv.Perm Nat}

theorem declaresOnce_of_nodup (nodup : (drafts.filterMap Draft.name).Nodup) :
    DeclaresOnce drafts := by
  have distinct := List.pairwise_iff_getElem.mp (List.pairwise_filterMap.mp nodup)
  rintro name first second ⟨_, atFirst, firstName⟩ ⟨_, atSecond, secondName⟩
  obtain ⟨firstInside, rfl⟩ := List.getElem?_eq_some_iff.mp atFirst
  obtain ⟨secondInside, rfl⟩ := List.getElem?_eq_some_iff.mp atSecond
  rcases Nat.lt_trichotomy first second with before | same | after
  · exact absurd rfl (distinct _ _ firstInside secondInside before name firstName name secondName)
  · exact same
  · exact absurd rfl (distinct _ _ secondInside firstInside after name secondName name firstName)

/-- A name that is declared once stands for the line that declares it. -/
theorem DeclaresOnce.find?_declarations_iff (once : DeclaresOnce drafts) {name : String}
    {index : Nat} :
    (declarations drafts).find? name = some index ↔ Declares drafts name index := by
  rw [find?_declarations]
  constructor
  · exact fun greatest => greatest.1
  · intro declares
    refine ⟨declares, fun other also => ?_⟩
    exact Nat.le_of_eq (once name other index also declares)

theorem declares_moved_iff (rearranges : Rearranges place drafts moved) {name : String}
    {index : Nat} : Declares moved name index ↔ Declares drafts name (place index) := by
  unfold Declares
  rw [rearranges index]

theorem DeclaresOnce.of_rearranges (once : DeclaresOnce drafts)
    (rearranges : Rearranges place drafts moved) : DeclaresOnce moved := by
  intro name first second atFirst atSecond
  refine place.injective (once name _ _ ?_ ?_)
  · exact (declares_moved_iff rearranges).mp atFirst
  · exact (declares_moved_iff rearranges).mp atSecond

/-- A name stands for the same line at its new place. -/
theorem DeclaresOnce.find?_moved_iff (once : DeclaresOnce drafts)
    (rearranges : Rearranges place drafts moved) {name : String} {index : Nat} :
    (declarations moved).find? name = some index ↔
      (declarations drafts).find? name = some (place index) := by
  rw [(once.of_rearranges rearranges).find?_declarations_iff, once.find?_declarations_iff,
    declares_moved_iff rearranges]

theorem mem_keys_moved_iff (rearranges : Rearranges place drafts moved) (name : String) :
    name ∈ (declarations moved).keys ↔ name ∈ (declarations drafts).keys := by
  rw [mem_keys_declarations, mem_keys_declarations]
  constructor
  · rintro ⟨index, declares⟩
    exact ⟨place index, (declares_moved_iff rearranges).mp declares⟩
  · rintro ⟨index, declares⟩
    exact ⟨place.symm index, (declares_moved_iff rearranges.symm).mp declares⟩

theorem DeclaresOnce.dependsOn_moved (once : DeclaresOnce drafts)
    (rearranges : Rearranges place drafts moved) {line other : Nat}
    (depends : (dependencies moved).DependsOn line other) :
    (dependencies drafts).DependsOn (place line) (place other) := by
  obtain ⟨draft, name, found, mentions, stands⟩ := dependsOn_mentioned_iff.mp depends
  refine dependsOn_mentioned_iff.mpr ⟨draft, name, ?_, mentions, ?_⟩
  · rw [← rearranges line]
    exact found
  · exact (once.find?_moved_iff rearranges).mp stands

/-- A cycle among moved lines was there before they were moved. -/
theorem DeclaresOnce.isCyclic_of_moved (once : DeclaresOnce drafts)
    (rearranges : Rearranges place drafts moved)
    (cyclic : (dependencies moved).isCyclic = true) : (dependencies drafts).isCyclic = true := by
  obtain ⟨line, cycle⟩ := Dependencies.exists_cycle_of_isCyclic (valid_dependencies moved) cyclic
  have before := Relation.TransGen.lift place
    (fun _ _ => once.dependsOn_moved rearranges) _ _ cycle
  exact Dependencies.isCyclic_of_cycle (valid_dependencies drafts) before

theorem DeclaresOnce.isCyclic_moved (once : DeclaresOnce drafts)
    (rearranges : Rearranges place drafts moved) :
    (dependencies moved).isCyclic = (dependencies drafts).isCyclic := by
  rw [Bool.eq_iff_iff]
  constructor
  · exact once.isCyclic_of_moved rearranges
  · exact (once.of_rearranges rearranges).isCyclic_of_moved rearranges.symm

end Draft

/-! ### Worksheets -/

namespace Sheet

variable {catalog : Catalog} {drafts moved : List Draft} {place : Equiv.Perm Nat}

/-- The lines of a document correspond to those at their new places. -/
theorem corresponds_moved (once : Draft.DeclaresOnce drafts)
    (rearranges : Rearranges place drafts moved) :
    (ofDrafts catalog drafts).Corresponds (ofDrafts catalog moved)
      fun index there => place there = index where
  line := by
    rintro _ there rfl line found
    rw [ofDrafts, List.getElem?_map, ← rearranges there] at found
    obtain ⟨draft, atPlace, rfl⟩ := Option.map_eq_some_iff.mp found
    refine ⟨Line.ofDraft catalog (Draft.declarations moved) draft, ?_, ?_⟩
    · rw [ofDrafts, List.getElem?_map, atPlace]
      rfl
    · refine sameExpression_ofDraft (fun name => ?_) draft
      exact (Draft.mem_keys_moved_iff rearranges name).symm
  names := by
    rintro _ there rfl name target _ stands
    refine ⟨place.symm target, ?_, place.apply_symm_apply target⟩
    refine (once.find?_moved_iff rearranges).mpr ?_
    rw [Equiv.apply_symm_apply]
    exact stands

theorem name_ofDrafts (catalog : Catalog) (drafts : List Draft) (index : Nat) :
    (ofDrafts catalog drafts).lines[index]?.map Line.name = drafts[index]?.map Draft.name := by
  rw [ofDrafts, List.getElem?_map, Option.map_map]
  rfl

/-- Moved lines have the outcomes that they had before. -/
theorem Settled.outcome_moved (once : Draft.DeclaresOnce drafts)
    (rearranges : Rearranges place drafts moved) {outcomes others : List Outcome}
    (linked : (ofDrafts catalog drafts).Linked catalog)
    (settled : (ofDrafts catalog drafts).Settled outcomes)
    (otherSettled : (ofDrafts catalog moved).Settled others) (index : Nat) :
    others[index]? = outcomes[place index]? := by
  by_cases inside : place index < (ofDrafts catalog drafts).lines.length
  · exact (corresponds_moved once rearranges).outcome_eq linked settled otherSettled inside rfl
  · have outside : (ofDrafts catalog drafts).lines[place index]? = none :=
      List.getElem?_eq_none (Nat.le_of_not_lt inside)
    have outsideMoved : (ofDrafts catalog moved).lines[index]? = none := by
      rw [ofDrafts, List.getElem?_map, rearranges index, Option.map_eq_none_iff]
      rw [ofDrafts, List.getElem?_map, Option.map_eq_none_iff] at outside
      exact outside
    rw [settled.eq_none_iff.mpr outside, otherSettled.eq_none_iff.mpr outsideMoved]

/-- The places of lines do not matter. A document in which no name is declared twice and the
document with its lines in any other order are both refused for a cycle; or both have outcomes, and
every line has the name and the outcome, a quantity or an error, that it has in the other one. -/
theorem run_rearranges {source shuffled : String} (catalog : Catalog)
    (once : (((Text.sheetLines source).map Draft.ofText).filterMap Draft.name).Nodup)
    (rearranges : Rearranges place (Text.sheetLines source) (Text.sheetLines shuffled)) :
    (compile catalog source = .error ⟨⟩ ∧ compile catalog shuffled = .error ⟨⟩) ∨
    ∃ sheet outcomes other others, run catalog source = .ok (sheet, outcomes) ∧
      run catalog shuffled = .ok (other, others) ∧
      ∀ index : Nat,
        other.lines[index]?.map Line.name = sheet.lines[place index]?.map Line.name ∧
        others[index]? = outcomes[place index]? := by
  have once := Draft.declaresOnce_of_nodup once
  have moved := rearranges.map Draft.ofText
  have cyclic := once.isCyclic_moved moved
  cases known : (Draft.dependencies ((Text.sheetLines source).map Draft.ofText)).isCyclic with
  | true =>
    rw [known] at cyclic
    exact .inl ⟨by rw [compile_eq, if_pos known], by rw [compile_eq, if_pos cyclic]⟩
  | false =>
    rw [known] at cyclic
    obtain ⟨sheet, outcomes, ran, settled⟩ := exists_run_of_acyclic catalog known
    obtain ⟨other, others, otherRan, otherSettled⟩ := exists_run_of_acyclic catalog cyclic
    have linked := linked_of_compile (run_eq_ok_iff.mp ran).1
    obtain ⟨rfl, _⟩ := compile_eq_ok_iff.mp (run_eq_ok_iff.mp ran).1
    obtain ⟨rfl, _⟩ := compile_eq_ok_iff.mp (run_eq_ok_iff.mp otherRan).1
    refine .inr ⟨_, outcomes, _, others, ran, otherRan, fun index => ⟨?_, ?_⟩⟩
    · rw [name_ofDrafts, name_ofDrafts, moved index]
    · exact settled.outcome_moved once moved linked otherSettled index

/-- A line that refers to the next one has the outcome that it has after it. -/
theorem outcome_of_forward_reference : ∃ sheet outcomes other others,
    run Catalog.builtin "y: x / 2\nx: 3" = .ok (sheet, outcomes) ∧
    run Catalog.builtin "x: 3\ny: x / 2" = .ok (other, others) ∧
    others[1]? = outcomes[0]? := by
  have before : Text.sheetLines "y: x / 2\nx: 3" =
      ["y: x / 2".toList, "x: 3".toList] := by cbv
  have after : Text.sheetLines "x: 3\ny: x / 2" =
      ["x: 3".toList, "y: x / 2".toList] := by cbv
  have rearranges : Rearranges (Equiv.swap 0 1) (Text.sheetLines "y: x / 2\nx: 3")
      (Text.sheetLines "x: 3\ny: x / 2") := by
    rw [before, after]
    rintro (_ | _ | index)
    · rw [Equiv.swap_apply_left]
      rfl
    · rw [Equiv.swap_apply_right]
      rfl
    · rw [Equiv.swap_apply_of_ne_of_ne (by omega) (by omega)]
      rfl
  have names : ((Text.sheetLines "y: x / 2\nx: 3").map Draft.ofText).filterMap Draft.name =
      ["y", "x"] := by cbv
  have acyclic : (Draft.dependencies
      ((Text.sheetLines "y: x / 2\nx: 3").map Draft.ofText)).isCyclic = false := by cbv
  rcases run_rearranges Catalog.builtin (names ▸ by decide) rearranges with ⟨refused, _⟩ | both
  · rw [compile_eq, acyclic] at refused
    cases refused
  · obtain ⟨sheet, outcomes, other, others, ran, otherRan, same⟩ := both
    refine ⟨sheet, outcomes, other, others, ran, otherRan, ?_⟩
    rw [(same 1).2, Equiv.swap_apply_right]

end Sheet

end UnitSheet
