/-
This file keeps worksheets while exchange rates change.

A workbook has a catalogue, of which the exchange rates can be set and taken back at any time,
and pages, each with a worksheet and what is known of its lines. A worksheet is made with the
exchange rates in force; its page can be evaluated any number of times, starting from what is
known. An action that is refused changes nothing.
-/

import UnitSheet.Sheet.Run

namespace UnitSheet

namespace Workbook

/-- A worksheet and what is known of its lines. -/
structure Page where
  sheet : Sheet
  outcomes : List Outcome

/-- The page of a worksheet of which no line has been evaluated. -/
def Page.ofSheet (sheet : Sheet) : Page :=
  ⟨sheet, sheet.unevaluated⟩

/-- The page with its lines evaluated, starting from what is known of them. -/
def Page.evaluate (page : Page) : Except Defect Page := do
  return ⟨page.sheet, ← page.sheet.evaluate page.outcomes⟩

/-- What can be done with a workbook: a page is added for a document, a page is evaluated, or
exchange rates are set or taken back. -/
inductive Action where
  | compile (source : String)
  | evaluate (index : Nat)
  | setRates (rates : List (String × Float))
  | resetRates

/-- Why an action is refused. -/
inductive Refusal where
  | cyclic (error : CyclicSheet)
  | noPage (index : Nat)
  | defect (defect : Defect)
  | rates (error : CatalogError)

end Workbook

/-- A catalogue with the exchange rates in force, and pages in the order they were added in. -/
structure Workbook where
  catalog : Catalog
  pages : List Workbook.Page

namespace Workbook

/-- A workbook without pages, before any exchange rate is set. -/
def initial : Workbook :=
  ⟨Catalog.builtin, []⟩

/-- The workbook with an action done, unless it is refused. -/
def apply (workbook : Workbook) : Action → Except Refusal Workbook
  | .compile source => do
    let sheet ← (Sheet.compile workbook.catalog source).mapError .cyclic
    return { workbook with pages := workbook.pages ++ [Page.ofSheet sheet] }
  | .evaluate index =>
    match workbook.pages[index]? with
    | none => .error (.noPage index)
    | some page => do
      let page ← page.evaluate.mapError .defect
      return { workbook with pages := workbook.pages.set index page }
  | .setRates rates => do
    let catalog ← (workbook.catalog.setRates rates).mapError .rates
    return { workbook with catalog := catalog }
  | .resetRates => .ok { workbook with catalog := workbook.catalog.resetRates }

/-- The workbook after an action, which changes nothing if it is refused. -/
def next (workbook : Workbook) (action : Action) : Workbook :=
  match workbook.apply action with
  | .ok changed => changed
  | .error _ => workbook

/-- The workbook after several actions, one after the other. -/
def after (workbook : Workbook) (actions : List Action) : Workbook :=
  actions.foldl next workbook

end Workbook

end UnitSheet
