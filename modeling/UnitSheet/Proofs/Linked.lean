/-
This file says how the parts of a compiled worksheet fit together.

A worksheet has one line for each piece of the document between line feeds. A name stands for the
last line that declares it, the lines that a line depends on are those its names stand for, and
the order of evaluation has them before it. Names are met in two ways: the dependencies of a
line come from its tokens and the references in its tree from reading it. They agree because every
reference of a tree is a token of its line (`Grammar.expression_of_ofLine`). What evaluation
needs of all this is `Sheet.Linked`.
-/

import UnitSheet.Proofs.Expressions
import UnitSheet.Proofs.Tables
import UnitSheet.Proofs.Cycles
import UnitSheet.Sheet.Run

namespace UnitSheet

/-! ### Pieces of a document -/

namespace Text

/-- Cutting at line feeds is splitting a list at an element. -/
theorem splitLineFeeds_eq_splitOn (text : List Char) : splitLineFeeds text = text.splitOn '\n' := by
  induction text with
  | nil => rfl
  | cons character rest inductionHypothesis =>
    rw [splitLineFeeds, inductionHypothesis, List.splitOn_cons_eq_if_modifyHead]
    by_cases feed : character = '\n'
    · rw [if_pos feed, if_pos (beq_of_eq feed)]
    · rw [if_neg feed, if_neg (fun same => feed (eq_of_beq same))]
      cases pieces : rest.splitOn '\n' with
      | nil => exact absurd pieces (List.splitOn_ne_nil _ _)
      | cons line others => rfl

theorem not_mem_of_mem_splitLineFeeds {text line : List Char}
    (member : line ∈ splitLineFeeds text) : '\n' ∉ line := by
  induction text generalizing line with
  | nil =>
    cases List.mem_singleton.mp member
    exact List.not_mem_nil
  | cons character rest inductionHypothesis =>
    rw [splitLineFeeds] at member
    split at member
    · rcases List.mem_cons.mp member with rfl | member
      · exact List.not_mem_nil
      · exact inductionHypothesis member
    · rename_i differs
      split at member
      · cases List.mem_singleton.mp member
        exact fun same => differs (List.mem_singleton.mp same).symm
      · rename_i first others pieces
        rw [pieces] at inductionHypothesis
        rcases List.mem_cons.mp member with rfl | member
        · intro feed
          rcases List.mem_cons.mp feed with same | feed
          · exact differs same.symm
          · exact inductionHypothesis List.mem_cons_self feed
        · exact inductionHypothesis (List.mem_cons_of_mem _ member)

/-- The lines of a worksheet are single lines. -/
theorem not_mem_of_mem_sheetLines {source : String} {line : List Char}
    (member : line ∈ sheetLines source) : '\n' ∉ line := by
  obtain ⟨piece, among, rfl⟩ := List.mem_map.mp member
  unfold dropCarriageReturn
  split
  · exact fun feed => not_mem_of_mem_splitLineFeeds among (List.dropLast_subset _ feed)
  · exact not_mem_of_mem_splitLineFeeds among

end Text

/-! ### Drafts -/

namespace Draft

/-- The names that lines declare, each with its line. -/
def declared (drafts : List Draft) : List (String × Nat) :=
  drafts.zipIdx.filterMap fun (draft, index) => draft.name.map fun name => (name, index)

theorem mem_declared {drafts : List Draft} {name : String} {index : Nat} :
    (name, index) ∈ declared drafts ↔
      ∃ draft, drafts[index]? = some draft ∧ draft.name = some name := by
  rw [declared, List.mem_filterMap]
  constructor
  · rintro ⟨⟨draft, other⟩, member, entry⟩
    obtain ⟨_, declares, equal⟩ := Option.map_eq_some_iff.mp entry
    cases equal
    exact ⟨draft, List.mem_zipIdx_iff_getElem?.mp member, declares⟩
  · rintro ⟨draft, found, declares⟩
    refine ⟨(draft, index), List.mem_zipIdx_iff_getElem?.mpr found, ?_⟩
    exact Option.map_eq_some_iff.mpr ⟨name, declares, rfl⟩

theorem declared_increasing (drafts : List Draft) :
    (declared drafts).Pairwise fun first second => first.2 < second.2 := by
  have indices : drafts.zipIdx.Pairwise fun first second => first.2 < second.2 := by
    refine List.pairwise_map.mp (?_ : (drafts.zipIdx.map Prod.snd).Pairwise (· < ·))
    rw [List.zipIdx_map_snd]
    exact List.pairwise_lt_range'
  refine List.pairwise_filterMap.mpr (indices.imp ?_)
  rintro ⟨_, index⟩ ⟨_, later⟩ before _ first _ second
  obtain ⟨_, _, rfl⟩ := Option.map_eq_some_iff.mp first
  obtain ⟨_, _, rfl⟩ := Option.map_eq_some_iff.mp second
  exact before

/-- A name stands for the last line that declares it. -/
theorem find?_declarations (drafts : List Draft) (name : String) (index : Nat) :
    (declarations drafts).find? name = some index ↔
      IsGreatest {other | ∃ draft, drafts[other]? = some draft ∧ draft.name = some name} index := by
  rw [show declarations drafts = Table.ofList (declared drafts) from rfl, Table.find?_ofList,
    Table.lookup_eq_some_iff_isGreatest (List.pairwise_reverse.mpr (declared_increasing drafts))]
  simp only [List.mem_reverse, mem_declared]

theorem mem_keys_declarations (drafts : List Draft) (name : String) :
    name ∈ (declarations drafts).keys ↔
      ∃ (index : Nat) (draft : Draft), drafts[index]? = some draft ∧ draft.name = some name := by
  rw [show declarations drafts = Table.ofList (declared drafts) from rfl, Table.mem_keys_ofList]
  simp only [mem_declared]

theorem mem_mentioned {names : Table Nat} {draft : Draft} {index : Nat} :
    index ∈ mentioned names draft ↔
      ∃ name, ⟨.literal, name⟩ ∈ draft.tokens ∧ names.find? name = some index := by
  rw [mentioned, List.mem_filterMap]
  constructor
  · rintro ⟨⟨kind, name⟩, member, found⟩
    by_cases literal : kind = .literal
    · subst literal
      exact ⟨name, member, found⟩
    · rw [if_neg literal] at found
      cases found
  · rintro ⟨name, member, found⟩
    exact ⟨⟨.literal, name⟩, member, found⟩

/-- The lines that each of the lines depends on, by the names that are mentioned on it. -/
theorem dependsOn_mentioned_iff {names : Table Nat} {drafts : List Draft} {line other : Nat} :
    Dependencies.DependsOn (drafts.map (mentioned names)) line other ↔
      ∃ draft name, drafts[line]? = some draft ∧ ⟨.literal, name⟩ ∈ draft.tokens ∧
        names.find? name = some other := by
  rw [Dependencies.DependsOn, Dependencies.of, List.getElem?_map]
  cases drafts[line]? with
  | none =>
    refine iff_of_false List.not_mem_nil ?_
    rintro ⟨_, _, ⟨⟩, _⟩
  | some draft =>
    rw [Option.map_some, Option.getD_some, mem_mentioned]
    constructor
    · rintro ⟨name, member, stands⟩
      exact ⟨draft, name, rfl, member, stands⟩
    · rintro ⟨_, name, same, member, stands⟩
      cases same
      exact ⟨name, member, stands⟩

theorem lt_length_of_find? {drafts : List Draft} {name : String} {index : Nat}
    (found : (declarations drafts).find? name = some index) : index < drafts.length := by
  obtain ⟨⟨draft, declares, _⟩, _⟩ := (find?_declarations drafts name index).mp found
  exact (List.getElem?_eq_some_iff.mp declares).1

/-- The lines that each line of a document depends on. -/
def dependencies (drafts : List Draft) : Dependencies :=
  drafts.map (mentioned (declarations drafts))

/-- Lines depend on lines of the document, cyclic or not. -/
theorem valid_dependencies (drafts : List Draft) : (dependencies drafts).Valid := by
  intro line other depends
  obtain ⟨_, _, _, _, stands⟩ := dependsOn_mentioned_iff.mp depends
  rw [dependencies, List.length_map]
  exact lt_length_of_find? stands

/-- A declaration is a name and a colon, and the expression is what follows. -/
theorem splitDeclaration_eq_some_iff {tokens : List Token} {name : String} :
    (splitDeclaration tokens).1 = some name ↔ ∃ colon, colon.kind = .definition ∧
      tokens = ⟨.literal, name⟩ :: colon :: (splitDeclaration tokens).2 := by
  match tokens with
  | [] | [_] => exact ⟨nofun, nofun⟩
  | first :: second :: rest =>
    rw [splitDeclaration]
    by_cases declares : first.kind = .literal ∧ second.kind = .definition
    · obtain ⟨kind, text⟩ := first
      cases declares.1
      rw [if_pos declares]
      constructor
      · rintro equal
        cases equal
        exact ⟨second, declares.2, rfl⟩
      · rintro ⟨colon, _, equal⟩
        cases equal
        rfl
    · rw [if_neg declares]
      refine ⟨nofun, ?_⟩
      -- Nothing is left out, so the tokens cannot be longer than what follows.
      rintro ⟨colon, _, equal⟩
      cases equal

theorem splitDeclaration_suffix (tokens : List Token) : (splitDeclaration tokens).2 <:+ tokens := by
  match tokens with
  | [] | [_] => exact List.suffix_refl _
  | first :: second :: rest =>
    rw [splitDeclaration]
    split
    · exact (List.suffix_cons second rest).trans (List.suffix_cons first _)
    · exact List.suffix_refl _

/-- The tokens of an expression are cut from its line. -/
theorem scanned_ofText (text : List Char) :
    ∀ token ∈ (ofText text).tokens, ∃ line, token ∈ Token.scan line := by
  intro token member
  rw [ofText] at member
  split at member
  · cases member
  · rename_i raw read
    have meaningful := (splitDeclaration_suffix _).subset member
    exact ⟨text, Token.eq_scan_of_read read ▸ List.mem_of_mem_filter meaningful⟩

/-- A line declares a name when the name and a colon come first on it. -/
theorem name_ofText_eq_some_iff {text : List Char} {name : String} :
    (ofText text).name = some name ↔ ∃ colon, colon.kind = .definition ∧
      Token.meaningful (ofText text).rawTokens =
        ⟨.literal, name⟩ :: colon :: (ofText text).tokens := by
  rw [ofText]
  split
  · exact ⟨nofun, nofun⟩
  · exact splitDeclaration_eq_some_iff

end Draft

/-! ### Worksheets -/

namespace Sheet

/-- The lines that each line depends on. -/
def dependencies (sheet : Sheet) : Dependencies :=
  sheet.lines.map Line.dependencies

/-- A line declares a name when the name and a colon come before its expression. -/
def Declares (sheet : Sheet) (name : String) (index : Nat) : Prop :=
  ∃ line colon, sheet.lines[index]? = some line ∧ colon.kind = .definition ∧
    Token.meaningful line.rawTokens = ⟨.literal, name⟩ :: colon :: line.tokens

/-- A name stands for a line that a given line depends on. -/
def Refers (sheet : Sheet) (line : Line) (name : String) : Prop :=
  ∃ index ∈ line.dependencies, sheet.names.find? name = some index

/-- What evaluation needs of a worksheet: names stand for lines of it, its order has every line
after those it depends on, and the tree of a line refers to lines that it depends on and has
units of the catalogue. -/
structure Linked (sheet : Sheet) (catalog : Catalog) : Prop where
  inside : ∀ name index, sheet.names.find? name = some index → index < sheet.lines.length
  ordered : sheet.dependencies.IsOrder sheet.order
  expression : ∀ line ∈ sheet.lines, line.isBlank = false → ∀ tree, line.tree = .ok tree →
    tree.Expression (sheet.Refers line) catalog.HasUnit

theorem of_dependencies {sheet : Sheet} {index : Nat} {line : Line}
    (found : sheet.lines[index]? = some line) :
    sheet.dependencies.of index = line.dependencies := by
  rw [Dependencies.of, dependencies, List.getElem?_map, found]
  rfl

/-- Only lines of the worksheet depend on any. -/
theorem exists_line_of_mem_of {sheet : Sheet} {index other : Nat}
    (depends : other ∈ sheet.dependencies.of index) :
    ∃ line, sheet.lines[index]? = some line ∧ other ∈ line.dependencies := by
  cases found : sheet.lines[index]? with
  | none =>
    rw [Dependencies.of, dependencies, List.getElem?_map, found] at depends
    cases depends
  | some line => exact ⟨line, rfl, of_dependencies found ▸ depends⟩

theorem length_dependencies (sheet : Sheet) : sheet.dependencies.length = sheet.lines.length :=
  List.length_map _

/-! ### Compiled worksheets -/

variable {catalog : Catalog} {source : String} {sheet : Sheet}

/-- The worksheet of drafts, cyclic or not. -/
def ofDrafts (catalog : Catalog) (drafts : List Draft) : Sheet :=
  let names := Draft.declarations drafts
  ⟨drafts.map (Line.ofDraft catalog names), names,
    Dependencies.order (drafts.map (Draft.mentioned names))⟩

theorem dependencies_ofDrafts (catalog : Catalog) (drafts : List Draft) :
    (ofDrafts catalog drafts).dependencies = Draft.dependencies drafts :=
  List.map_map

/-- A document becomes the worksheet of its drafts, or is refused if they are cyclic. -/
theorem compile_eq (catalog : Catalog) (source : String) :
    compile catalog source =
      if (Draft.dependencies ((Text.sheetLines source).map Draft.ofText)).isCyclic then .error ⟨⟩
      else .ok (ofDrafts catalog ((Text.sheetLines source).map Draft.ofText)) :=
  rfl

theorem compile_eq_error_iff :
    compile catalog source = .error ⟨⟩ ↔
      (Draft.dependencies ((Text.sheetLines source).map Draft.ofText)).isCyclic = true := by
  rw [compile_eq]
  split
  · exact iff_of_true rfl ‹_›
  · exact iff_of_false nofun ‹_›

/-- A document that is not refused becomes the worksheet of its drafts. -/
theorem compile_eq_ok_iff :
    compile catalog source = .ok sheet ↔
      sheet = ofDrafts catalog ((Text.sheetLines source).map Draft.ofText) ∧
        sheet.dependencies.isCyclic = false := by
  rw [compile_eq, ← dependencies_ofDrafts catalog]
  constructor
  · intro compiled
    split at compiled
    · cases compiled
    · rename_i acyclic
      cases compiled
      exact ⟨rfl, Bool.eq_false_iff.mpr acyclic⟩
  · rintro ⟨rfl, acyclic⟩
    rw [if_neg (Bool.eq_false_iff.mp acyclic)]

/-- The lines of a compiled worksheet are made from the pieces of the document one by one. -/
theorem lines_of_compile (compiled : compile catalog source = .ok sheet) :
    sheet.lines = (source.toList.splitOn '\n').map fun piece =>
      Line.ofDraft catalog sheet.names (Draft.ofText (Text.dropCarriageReturn piece)) := by
  rw [(compile_eq_ok_iff.mp compiled).1]
  simp only [ofDrafts, Text.sheetLines, Text.splitLineFeeds_eq_splitOn, List.map_map]
  rfl

/-- A line of a compiled worksheet is that of the text of a piece. -/
theorem exists_text_of_mem (compiled : compile catalog source = .ok sheet) {line : Line}
    (member : line ∈ sheet.lines) :
    ∃ text, line = Line.ofDraft catalog sheet.names (Draft.ofText text) := by
  rw [lines_of_compile compiled] at member
  obtain ⟨piece, _, equal⟩ := List.mem_map.mp member
  exact ⟨_, equal.symm⟩

theorem declares_ofDrafts_iff (catalog : Catalog) (texts : List (List Char)) (name : String)
    (index : Nat) :
    (ofDrafts catalog (texts.map Draft.ofText)).Declares name index ↔
      ∃ draft, (texts.map Draft.ofText)[index]? = some draft ∧ draft.name = some name := by
  simp only [Declares, ofDrafts, List.getElem?_map, Option.map_map, Option.map_eq_some_iff]
  constructor
  · rintro ⟨_, colon, ⟨text, found, rfl⟩, definition, tokens⟩
    exact ⟨_, ⟨text, found, rfl⟩, Draft.name_ofText_eq_some_iff.mpr ⟨colon, definition, tokens⟩⟩
  · rintro ⟨_, ⟨text, found, rfl⟩, named⟩
    obtain ⟨colon, definition, tokens⟩ := Draft.name_ofText_eq_some_iff.mp named
    exact ⟨_, colon, ⟨text, found, rfl⟩, definition, tokens⟩

/-- A name of a compiled worksheet stands for the last line that declares it. -/
theorem find?_names_iff (compiled : compile catalog source = .ok sheet) (name : String)
    (index : Nat) :
    sheet.names.find? name = some index ↔ IsGreatest {other | sheet.Declares name other} index := by
  rw [(compile_eq_ok_iff.mp compiled).1]
  simp only [declares_ofDrafts_iff]
  exact Draft.find?_declarations _ name index

/-- The names of a compiled worksheet are those that some line declares. -/
theorem mem_keys_names_iff (compiled : compile catalog source = .ok sheet) (name : String) :
    name ∈ sheet.names.keys ↔ ∃ index, sheet.Declares name index := by
  rw [(compile_eq_ok_iff.mp compiled).1]
  simp only [declares_ofDrafts_iff]
  exact Draft.mem_keys_declarations _ name

/-- A line depends on those that the names among its tokens stand for. -/
theorem mem_dependencies_iff (compiled : compile catalog source = .ok sheet) {line : Line}
    (member : line ∈ sheet.lines) (index : Nat) :
    index ∈ line.dependencies ↔
      ∃ name, ⟨.literal, name⟩ ∈ line.tokens ∧ sheet.names.find? name = some index := by
  obtain ⟨text, rfl⟩ := exists_text_of_mem compiled member
  exact Draft.mem_mentioned

theorem inside_of_compile (compiled : compile catalog source = .ok sheet) (name : String)
    (index : Nat) (found : sheet.names.find? name = some index) : index < sheet.lines.length := by
  obtain ⟨⟨line, _, exists_line, _⟩, _⟩ := (find?_names_iff compiled name index).mp found
  exact (List.getElem?_eq_some_iff.mp exists_line).1

/-- Lines depend on lines of the worksheet. -/
theorem lt_of_mem_dependencies (compiled : compile catalog source = .ok sheet) {line : Line}
    (member : line ∈ sheet.lines) : ∀ index ∈ line.dependencies, index < sheet.lines.length := by
  intro index depends
  obtain ⟨name, _, found⟩ := (mem_dependencies_iff compiled member index).mp depends
  exact inside_of_compile compiled name index found

theorem valid_of_compile (compiled : compile catalog source = .ok sheet) :
    sheet.dependencies.Valid := by
  rw [(compile_eq_ok_iff.mp compiled).1, dependencies_ofDrafts]
  exact Draft.valid_dependencies _

/-- The order of evaluation has every line once, and after the lines it depends on. -/
theorem ordered_of_compile (compiled : compile catalog source = .ok sheet) :
    sheet.dependencies.IsOrder sheet.order := by
  have isOrder := Dependencies.isOrder_order (valid_of_compile compiled)
    (compile_eq_ok_iff.mp compiled).2
  have order : sheet.order = sheet.dependencies.order := by
    rw [(compile_eq_ok_iff.mp compiled).1, dependencies_ofDrafts]
    rfl
  rw [order]
  exact isOrder

/-- The tree of a line is what its tokens are read as. -/
theorem Line.ofLine_of_tree {names : Table Nat} {draft : Draft} {tree : Node}
    (equal : (Line.ofDraft catalog names draft).tree = .ok tree) :
    Node.ofLine ⟨names.keys, catalog⟩ draft.tokens = .ok tree := by
  simp only [Line.ofDraft] at equal
  split at equal
  · cases equal
  · exact mapError_eq_ok.mp equal

theorem ofLine_of_compile (compiled : compile catalog source = .ok sheet) {line : Line}
    (member : line ∈ sheet.lines) {tree : Node} (equal : line.tree = .ok tree) :
    Node.ofLine ⟨sheet.names.keys, catalog⟩ line.tokens = .ok tree := by
  obtain ⟨text, rfl⟩ := exists_text_of_mem compiled member
  exact Line.ofLine_of_tree equal

/-- The names that are references in the tree of a line are among its tokens. -/
theorem expression_of_compile (compiled : compile catalog source = .ok sheet) {line : Line}
    (member : line ∈ sheet.lines) (some : line.isBlank = false) {tree : Node}
    (equal : line.tree = .ok tree) : tree.Expression (sheet.Refers line) catalog.HasUnit := by
  have depends := mem_dependencies_iff compiled member
  have read := ofLine_of_compile compiled member equal
  have tokens : line.tokens ≠ [] := List.isEmpty_eq_false_iff.mp some
  obtain ⟨text, rfl⟩ := exists_text_of_mem compiled member
  refine (Grammar.expression_of_ofLine tokens (Draft.scanned_ofText text) read).mono ?_
  rintro name ⟨reference, inTokens⟩
  obtain ⟨index, found⟩ := (Table.mem_keys_iff sheet.names name).mp reference.2
  exact ⟨index, (depends index).mpr ⟨name, inTokens, found⟩, found⟩

/-- The parts of a compiled worksheet fit together. -/
theorem linked_of_compile (compiled : compile catalog source = .ok sheet) :
    sheet.Linked catalog where
  inside := inside_of_compile compiled
  ordered := ordered_of_compile compiled
  expression := fun _ member some _ equal => expression_of_compile compiled member some equal

/-- The tree of a blank line is blank. -/
theorem eq_blank_of_compile (compiled : compile catalog source = .ok sheet) {line : Line}
    (member : line ∈ sheet.lines) (blank : line.isBlank = true) {tree : Node}
    (equal : line.tree = .ok tree) : tree = Node.blank := by
  have read := ofLine_of_compile compiled member equal
  rw [List.isEmpty_iff.mp blank] at read
  cases read
  rfl

/-- No line refers to a name that does not stand for a line it depends on. -/
theorem refers_of_within (compiled : compile catalog source = .ok sheet) {line : Line}
    (member : line ∈ sheet.lines) {tree : Node} (equal : line.tree = .ok tree) {name : String}
    (within : Node.Within (.reference name) tree) : sheet.Refers line name := by
  cases blank : line.isBlank with
  | false => exact (expression_of_compile compiled member blank equal).refers_of_within within
  | true =>
    rw [eq_blank_of_compile compiled member blank equal] at within
    exact absurd within (Node.not_within_blank name)

/-- What a document that is not refused compiles to. There is one line for each piece, and a name
stands for the last line that declares it. Every dependency is a line, and comes before the
lines that have it in the order of evaluation, which has every line once. A line has a tree
unless it has an error, and every name in the tree stands for a line that the line depends on. -/
theorem compile_links (compiled : compile catalog source = .ok sheet) :
    (sheet.lines = (source.toList.splitOn '\n').map fun piece =>
      Line.ofDraft catalog sheet.names (Draft.ofText (Text.dropCarriageReturn piece))) ∧
    (∀ name index, sheet.names.find? name = some index ↔
      IsGreatest {other | sheet.Declares name other} index) ∧
    (∀ name, name ∈ sheet.names.keys ↔ ∃ index, sheet.Declares name index) ∧
    (∀ line ∈ sheet.lines, ∀ index ∈ line.dependencies, index < sheet.lines.length) ∧
    sheet.order.Perm (List.range sheet.lines.length) ∧
    (∀ index line, sheet.lines[index]? = some line → ∀ other ∈ line.dependencies,
      sheet.order.idxOf other < sheet.order.idxOf index) ∧
    (∀ line ∈ sheet.lines, (∃ tree, line.tree = .ok tree) ↔
      ∀ error, line.unevaluated ≠ .error error) ∧
    (∀ index line tree name, sheet.lines[index]? = some line → line.tree = .ok tree →
      Node.Within (.reference name) tree → ∃ other ∈ line.dependencies,
        sheet.names.find? name = some other ∧
        sheet.order.idxOf other < sheet.order.idxOf index) := by
  have ordered := ordered_of_compile compiled
  have before : ∀ index line, sheet.lines[index]? = some line → ∀ other ∈ line.dependencies,
      sheet.order.idxOf other < sheet.order.idxOf index := by
    intro index line found other depends
    refine ordered.idxOf_lt ?_ ?_
    · rw [length_dependencies]
      exact (List.getElem?_eq_some_iff.mp found).1
    · rw [of_dependencies found]
      exact depends
  refine ⟨lines_of_compile compiled, find?_names_iff compiled, mem_keys_names_iff compiled,
    fun line member => lt_of_mem_dependencies compiled member, ?_, before, ?_, ?_⟩
  · rw [← length_dependencies]
    exact ordered.perm
  · intro line member
    unfold Line.unevaluated
    cases line.tree with
    | ok tree => exact ⟨fun _ => nofun, fun _ => ⟨tree, rfl⟩⟩
    | error error => exact ⟨nofun, fun none => absurd rfl (none _)⟩
  · intro index line tree name found equal within
    obtain ⟨other, depends, stands⟩ :=
      refers_of_within compiled (List.mem_of_getElem? found) equal within
    exact ⟨other, depends, stands, before index line found other depends⟩

/-- A line that mentions the name of the first line comes after it. -/
theorem idxOf_lt_of_mention : ∃ sheet, compile Catalog.builtin "x: 2\ny: x" = .ok sheet ∧
    sheet.order.idxOf 0 < sheet.order.idxOf 1 := by
  have acyclic : (ofDrafts Catalog.builtin
      ((Text.sheetLines "x: 2\ny: x").map Draft.ofText)).dependencies.isCyclic = false := by
    rw [dependencies_ofDrafts]
    cbv
  have depends : (ofDrafts Catalog.builtin
      ((Text.sheetLines "x: 2\ny: x").map Draft.ofText)).dependencies.of 1 = [0] := by
    rw [dependencies_ofDrafts]
    cbv
  have compiled := compile_eq_ok_iff.mpr ⟨rfl, acyclic⟩
  obtain ⟨_, _, _, _, _, before, _⟩ := compile_links compiled
  obtain ⟨line, found, depends⟩ := exists_line_of_mem_of (depends ▸ List.mem_singleton_self 0)
  exact ⟨_, compiled, before 1 line found 0 depends⟩

end Sheet

end UnitSheet
