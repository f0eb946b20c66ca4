/-
This file says what the pages of a workbook hold after any history.

Whatever is done to a workbook, a page keeps its worksheet, and what is known of its lines is
nothing before its first evaluation and the same after every evaluation from then on: what
running the document at once would have given, with the exchange rates that were in force when
the page was added. Evaluation itself needs two units of the catalogue, those of angles, and no
exchange rate ever touches them.
-/

import UnitSheet.Proofs.Totality
import UnitSheet.Workbook

namespace UnitSheet.Workbook

variable {workbook changed : Workbook} {action : Action} {index : Nat} {page : Page}
  {outcomes : List Outcome}

/-! ### One action -/

theorem Page.evaluate_eq_ok_iff {evaluated : Page} :
    page.evaluate = .ok evaluated ↔ ∃ outcomes,
      page.sheet.evaluate page.outcomes = .ok outcomes ∧ evaluated = ⟨page.sheet, outcomes⟩ := by
  rw [Page.evaluate, bind_eq_ok]
  constructor
  · rintro ⟨outcomes, evaluated, same⟩
    exact ⟨outcomes, evaluated, (Except.ok.inj same).symm⟩
  · rintro ⟨outcomes, evaluated, rfl⟩
    exact ⟨outcomes, evaluated, rfl⟩

/-- What an action does that is not refused. -/
theorem apply_cases (done : workbook.apply action = .ok changed) :
    (∃ source sheet, action = .compile source ∧
      Sheet.compile workbook.catalog source = .ok sheet ∧
      changed = ⟨workbook.catalog, workbook.pages ++ [Page.ofSheet sheet]⟩) ∨
    (∃ index page outcomes, action = .evaluate index ∧ workbook.pages[index]? = some page ∧
      page.sheet.evaluate page.outcomes = .ok outcomes ∧
      changed = ⟨workbook.catalog, workbook.pages.set index ⟨page.sheet, outcomes⟩⟩) ∨
    (∃ rates catalog, action = .setRates rates ∧ workbook.catalog.setRates rates = .ok catalog ∧
      changed = ⟨catalog, workbook.pages⟩) ∨
    action = .resetRates ∧ changed = ⟨workbook.catalog.resetRates, workbook.pages⟩ := by
  cases action with
  | compile source =>
    obtain ⟨sheet, compiled, same⟩ := bind_eq_ok.mp done
    cases same
    exact .inl ⟨source, sheet, rfl, mapError_eq_ok.mp compiled, rfl⟩
  | evaluate index =>
    rw [apply] at done
    split at done
    · cases done
    · rename_i page found
      obtain ⟨_, result, same⟩ := bind_eq_ok.mp done
      obtain ⟨outcomes, evaluated, rfl⟩ :=
        Page.evaluate_eq_ok_iff.mp (mapError_eq_ok.mp result)
      cases same
      exact .inr (.inl ⟨index, page, outcomes, rfl, found, evaluated, rfl⟩)
  | setRates rates =>
    obtain ⟨catalog, accepted, same⟩ := bind_eq_ok.mp done
    cases same
    exact .inr (.inr (.inl ⟨rates, catalog, rfl, mapError_eq_ok.mp accepted, rfl⟩))
  | resetRates =>
    cases done
    exact .inr (.inr (.inr ⟨rfl, rfl⟩))

theorem next_cases (workbook : Workbook) (action : Action) :
    workbook.next action = workbook ∨ workbook.apply action = .ok (workbook.next action) := by
  unfold next
  cases workbook.apply action with
  | ok changed => exact .inr rfl
  | error refusal => exact .inl rfl

/-- Only its own evaluation changes a page. -/
theorem pages_next_of_ne (found : workbook.pages[index]? = some page)
    (other : action ≠ .evaluate index) : (workbook.next action).pages[index]? = some page := by
  rcases next_cases workbook action with same | done
  · rw [same, found]
  rcases apply_cases done with ⟨_, sheet, _, _, equal⟩ | ⟨place, _, _, evaluates, _, _, equal⟩ |
    ⟨_, _, _, _, equal⟩ | ⟨_, equal⟩
  · have inside := (List.getElem?_eq_some_iff.mp found).1
    rw [equal, List.getElem?_append_left inside, found]
  · have elsewhere : place ≠ index := fun same => other (same ▸ evaluates)
    rw [equal, List.getElem?_set_ne elsewhere, found]
  · rw [equal, found]
  · rw [equal, found]

/-- A page of which the evaluation has a result is evaluated. -/
theorem apply_evaluate (found : workbook.pages[index]? = some page)
    (evaluated : page.sheet.evaluate page.outcomes = .ok outcomes) :
    workbook.apply (.evaluate index) =
      .ok ⟨workbook.catalog, workbook.pages.set index ⟨page.sheet, outcomes⟩⟩ := by
  have result := Page.evaluate_eq_ok_iff.mpr ⟨outcomes, evaluated, rfl⟩
  simp only [apply, found, result]
  rfl

theorem pages_next_evaluate (found : workbook.pages[index]? = some page)
    (evaluated : page.sheet.evaluate page.outcomes = .ok outcomes) :
    (workbook.next (.evaluate index)).pages[index]? = some ⟨page.sheet, outcomes⟩ := by
  have inside := (List.getElem?_eq_some_iff.mp found).1
  rw [next, apply_evaluate found evaluated]
  exact List.getElem?_set_self inside

/-- A page that was not there before has been added for a document. -/
theorem exists_compile_of_next (inside : index < (workbook.next action).pages.length)
    (absent : ¬ index < workbook.pages.length) : ∃ source sheet, action = .compile source ∧
      workbook.pages.length = index ∧ Sheet.compile workbook.catalog source = .ok sheet := by
  rcases next_cases workbook action with same | done
  · exact absurd (same ▸ inside) absent
  rcases apply_cases done with ⟨source, sheet, compiles, compiled, equal⟩ |
    ⟨_, _, _, _, _, _, equal⟩ | ⟨_, _, _, _, equal⟩ | ⟨_, equal⟩
  · rw [equal, List.length_append, List.length_singleton] at inside
    exact ⟨source, sheet, compiles, by omega, compiled⟩
  · rw [equal, List.length_set] at inside
    exact absurd inside absent
  · rw [equal] at inside
    exact absurd inside absent
  · rw [equal] at inside
    exact absurd inside absent

/-- Exchange rates change no page, whether they are accepted or not. -/
theorem pages_next_setRates (workbook : Workbook) (rates : List (String × Float)) :
    (workbook.next (.setRates rates)).pages = workbook.pages := by
  rw [next, apply]
  cases workbook.catalog.setRates rates with
  | ok catalog => rfl
  | error error => rfl

theorem adjusted_next (history : workbook.catalog.Adjusted) (action : Action) :
    (workbook.next action).catalog.Adjusted := by
  rcases next_cases workbook action with same | done
  · rw [same]
    exact history
  rcases apply_cases done with ⟨_, _, _, _, equal⟩ | ⟨_, _, _, _, _, _, equal⟩ |
    ⟨rates, _, _, accepted, equal⟩ | ⟨_, equal⟩
  · exact equal ▸ history
  · exact equal ▸ history
  · exact equal ▸ .setRates rates history accepted
  · exact equal ▸ .resetRates history

/-! ### Any number of actions -/

theorem after_append (workbook : Workbook) (first second : List Action) :
    workbook.after (first ++ second) = (workbook.after first).after second :=
  List.foldl_append

theorem adjusted_after (actions : List Action) : (initial.after actions).catalog.Adjusted := by
  induction actions using List.reverseRecOn with
  | nil => exact .initial
  | append_singleton actions action inductionHypothesis =>
    rw [after_append]
    exact adjusted_next inductionHypothesis action

/-- A page that evaluates to outcomes, and from there to the same ones again, has them after any
actions among which is its evaluation, and is as it was after any others. -/
theorem pages_after (found : workbook.pages[index]? = some page)
    (evaluated : page.sheet.evaluate page.outcomes = .ok outcomes)
    (again : page.sheet.evaluate outcomes = .ok outcomes) (actions : List Action) :
    ∃ known, (workbook.after actions).pages[index]? = some ⟨page.sheet, known⟩ ∧
      (.evaluate index ∈ actions → known = outcomes) ∧
      (.evaluate index ∉ actions → known = page.outcomes) := by
  -- The page is general, because from its first evaluation on it is the page with its outcomes
  -- to which the hypothesis applies, and `again` stands for `evaluated`.
  induction actions generalizing workbook page with
  | nil => exact ⟨page.outcomes, found, nofun, fun _ => rfl⟩
  | cons action rest inductionHypothesis =>
    by_cases evaluates : action = .evaluate index
    · subst evaluates
      have known := pages_next_evaluate found evaluated
      obtain ⟨final, atEnd, last, first⟩ := inductionHypothesis known again again
      have same : final = outcomes := by
        by_cases more : .evaluate index ∈ rest
        · exact last more
        · exact first more
      exact ⟨final, atEnd, fun _ => same, fun none => absurd List.mem_cons_self none⟩
    · have kept := pages_next_of_ne found evaluates
      obtain ⟨final, atEnd, last, first⟩ := inductionHypothesis kept evaluated again
      refine ⟨final, atEnd, fun member => last ?_, fun none => first fun member => ?_⟩
      · exact (List.mem_cons.mp member).resolve_left (Ne.symm evaluates)
      · exact none (List.mem_cons_of_mem _ member)

/-- Every page has been added for a document at some point of the history. -/
theorem exists_compile_of_after (actions : List Action)
    (inside : index < (initial.after actions).pages.length) :
    ∃ before source rest sheet, actions = before ++ .compile source :: rest ∧
      (initial.after before).pages.length = index ∧
      Sheet.compile (initial.after before).catalog source = .ok sheet := by
  induction actions using List.reverseRecOn with
  | nil => exact absurd inside (Nat.not_lt_zero index)
  | append_singleton actions action inductionHypothesis =>
    by_cases earlier : index < (initial.after actions).pages.length
    · obtain ⟨before, source, rest, sheet, split, place, compiled⟩ := inductionHypothesis earlier
      refine ⟨before, source, rest ++ [action], sheet, ?_, place, compiled⟩
      rw [split, List.append_assoc, List.cons_append]
    · rw [after_append] at inside
      obtain ⟨source, sheet, rfl, place, compiled⟩ := exists_compile_of_next inside earlier
      exact ⟨actions, source, [], sheet, rfl, place, compiled⟩

/-- The page of a document holds what running the document at once gives. -/
theorem pages_of_run {before : List Action} {source : String} {sheet : Sheet}
    (ran : Sheet.run (initial.after before).catalog source = .ok (sheet, outcomes))
    (place : (initial.after before).pages.length = index) (rest : List Action) :
    ∃ known, (initial.after (before ++ .compile source :: rest)).pages[index]? =
        some ⟨sheet, known⟩ ∧
      (.evaluate index ∈ rest → known = outcomes) ∧
      (.evaluate index ∉ rest → known = sheet.unevaluated) := by
  obtain ⟨compiled, evaluated⟩ := Sheet.run_eq_ok_iff.mp ran
  have again := (Sheet.settled_of_run ran).evaluate_eq
  have added : ((initial.after before).next (.compile source)).pages[index]? =
      some (Page.ofSheet sheet) := by
    simp only [next, apply, compiled, ← place]
    exact List.getElem?_concat_length
  rw [after_append]
  exact pages_after added evaluated again rest

/-- Every page can be evaluated. -/
theorem exists_apply_evaluate (actions : List Action)
    (inside : index < (initial.after actions).pages.length) :
    ∃ evaluated, (initial.after actions).apply (.evaluate index) = .ok evaluated := by
  obtain ⟨before, source, rest, sheet, rfl, place, compiled⟩ :=
    exists_compile_of_after actions inside
  obtain ⟨outcomes, ran, settled⟩ := Sheet.exists_run_of_compile compiled
  obtain ⟨known, found, last, first⟩ := pages_of_run ran place rest
  suffices evaluates : sheet.evaluate known = .ok outcomes from
    ⟨_, apply_evaluate found evaluates⟩
  by_cases evaluated : .evaluate index ∈ rest
  · rw [last evaluated]
    exact settled.evaluate_eq
  · rw [first evaluated]
    exact (Sheet.run_eq_ok_iff.mp ran).2

/-! ### Every history -/

/-- The units of angles are found as they are listed, whatever rates have been set. -/
theorem get?_angles (actions : List Action) :
    (initial.after actions).catalog.get? "degrees" = some Catalog.degrees ∧
      (initial.after actions).catalog.get? "radians" = some Catalog.radians := by
  have history := adjusted_after actions
  have degrees : Catalog.builtin.isCurrency "degrees" = false := by decide +kernel
  have radians : Catalog.builtin.isCurrency "radians" = false := by decide +kernel
  rw [history.get?_eq_of_not_currency degrees, history.get?_eq_of_not_currency radians]
  exact ⟨rfl, rfl⟩

/-- What a workbook holds after any history of documents compiled, pages evaluated, and exchange
rates set and taken back. A page is there at an index exactly when a document was compiled when
there were as many pages as the index says. It holds the worksheet of the document and, once it
has been evaluated, the outcomes that running the document at once gives, both for the catalogue
of the program with the factors in force when it was compiled; and nothing is known of its lines
before. The evaluation of a page is never refused, and the units that it looks up itself never
change. -/
theorem pages_of_history (actions : List Action) :
    (∀ index page, (initial.after actions).pages[index]? = some page ↔
      ∃ before source rest outcomes, actions = before ++ .compile source :: rest ∧
        (initial.after before).pages.length = index ∧
        Sheet.run { Catalog.builtin with
          rateFactors := (initial.after before).catalog.rateFactors } source =
            .ok (page.sheet, outcomes) ∧
        (.evaluate index ∈ rest → page.outcomes = outcomes) ∧
        (.evaluate index ∉ rest → page.outcomes = page.sheet.unevaluated)) ∧
    (∀ index < (initial.after actions).pages.length, ∃ evaluated,
      (initial.after actions).apply (.evaluate index) = .ok evaluated) ∧
    (initial.after actions).catalog.get? "degrees" = some Catalog.degrees ∧
    (initial.after actions).catalog.get? "radians" = some Catalog.radians := by
  refine ⟨fun index page => ⟨fun found => ?_, ?_⟩, fun _ => exists_apply_evaluate actions,
    get?_angles actions⟩
  · have inside := (List.getElem?_eq_some_iff.mp found).1
    obtain ⟨before, source, rest, sheet, rfl, place, compiled⟩ :=
      exists_compile_of_after actions inside
    obtain ⟨outcomes, ran, _⟩ := Sheet.exists_run_of_compile compiled
    obtain ⟨known, there, last, first⟩ := pages_of_run ran place rest
    cases found.symm.trans there
    rw [(adjusted_after before).eq_builtin_with] at ran
    exact ⟨before, source, rest, outcomes, rfl, place, ran, last, first⟩
  · rintro ⟨before, source, rest, outcomes, rfl, place, ran, last, first⟩
    rw [← (adjusted_after before).eq_builtin_with] at ran
    obtain ⟨known, there, knownLast, knownFirst⟩ := pages_of_run ran place rest
    have same : known = page.outcomes := by
      by_cases evaluated : .evaluate index ∈ rest
      · rw [knownLast evaluated, last evaluated]
      · rw [knownFirst evaluated, first evaluated]
    rw [there, same]

/-- A page keeps the outcomes of the rates under which its document was compiled when it is
evaluated again after they have been taken back. -/
theorem pages_after_resetRates : ∃ sheet outcomes,
    Sheet.run (initial.after [.setRates [("usd", 2)]]).catalog "x: 3 [usd]\nx / 0" =
      .ok (sheet, outcomes) ∧
    (initial.after [.setRates [("usd", 2)], .compile "x: 3 [usd]\nx / 0", .evaluate 0, .resetRates,
      .evaluate 0]).pages[0]? = some ⟨sheet, outcomes⟩ := by
  have acyclic : (Draft.dependencies
      ((Text.sheetLines "x: 3 [usd]\nx / 0").map Draft.ofText)).isCyclic = false := by cbv
  obtain ⟨sheet, outcomes, ran, _⟩ := Sheet.exists_run_of_acyclic
    (initial.after [.setRates [("usd", 2)]]).catalog acyclic
  have place : (initial.after [.setRates [("usd", 2)]]).pages.length = 0 := by
    rw [after, List.foldl_cons, List.foldl_nil, pages_next_setRates]
    rfl
  obtain ⟨pages, _⟩ := pages_of_history [.setRates [("usd", 2)], .compile "x: 3 [usd]\nx / 0",
    .evaluate 0, .resetRates, .evaluate 0]
  refine ⟨sheet, outcomes, ran, (pages 0 ⟨sheet, outcomes⟩).mpr ?_⟩
  rw [(adjusted_after [.setRates [("usd", 2)]]).eq_builtin_with] at ran
  refine ⟨[.setRates [("usd", 2)]], _, _, outcomes, rfl, place, ran, fun _ => rfl, fun none => ?_⟩
  exact absurd List.mem_cons_self none

end UnitSheet.Workbook
