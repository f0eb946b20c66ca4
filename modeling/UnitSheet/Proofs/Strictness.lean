/-
This file compares the two ways of cutting a line into tokens.

Both go through a line from left to right and make the same tokens until one of them meets a
character that begins no token. There the strict way stops. What it says of the line can therefore
be told from the tokens of the permissive way: the characters before the first unknown token are
those of the tokens before it (`FirstUnknown`), and without such a token both ways agree. Unknown
characters in a comment belong to the comment, so they are no tokens of either.
-/

import UnitSheet.Markup
import UnitSheet.Proofs.Linked
import UnitSheet.Proofs.Scanning

namespace UnitSheet

namespace Token

variable {line : List Char} {tokens before : List Token} {token : Token} {character : Char}

/-! ### The first unknown token -/

/-- Known tokens stand before the first unknown one, whose text is a character. -/
def FirstUnknown (tokens before : List Token) (character : Char) : Prop :=
  (∀ token ∈ before, token.kind ≠ .unknown) ∧
    ∃ after, tokens = before ++ ⟨.unknown, String.singleton character⟩ :: after

/-- An unknown token of a line has one character. -/
theorem exists_character_of_unknown (member : token ∈ scan line) (unknown : token.kind = .unknown) :
    ∃ character, token = ⟨.unknown, String.singleton character⟩ := by
  have fits := (cuts_scan line).fits token member
  obtain ⟨kind, text⟩ := token
  cases unknown
  generalize spelled : text.toList = characters at fits
  cases fits with
  | rule rule => cases rule
  | @unknown character =>
    refine ⟨character, ?_⟩
    rw [String.singleton_eq_ofList, ← spelled, String.ofList_toList]

/-- A line with an unknown token has a first one. -/
theorem exists_firstUnknown (some : ∃ token ∈ scan line, token.kind = .unknown) :
    ∃ before character, FirstUnknown (scan line) before character := by
  have found : ((scan line).find? fun token => decide (token.kind = .unknown)).isSome = true := by
    rw [List.find?_isSome]
    obtain ⟨token, member, unknown⟩ := some
    exact ⟨token, member, decide_eq_true unknown⟩
  obtain ⟨token, first⟩ := Option.isSome_iff_exists.mp found
  obtain ⟨unknown, before, after, split, known⟩ := List.find?_eq_some_iff_append.mp first
  have member : token ∈ scan line := split ▸ List.mem_append_right _ List.mem_cons_self
  obtain ⟨character, rfl⟩ := exists_character_of_unknown member (of_decide_eq_true unknown)
  exact ⟨before, character, fun earlier among => by simpa using known earlier among, after, split⟩

theorem FirstUnknown.exists_unknown (first : FirstUnknown tokens before character) :
    ∃ token ∈ tokens, token.kind = .unknown := by
  obtain ⟨_, after, rfl⟩ := first
  exact ⟨_, List.mem_append_right _ List.mem_cons_self, rfl⟩

/-! ### Reading strictly -/

/-- A strict reading stops at the first unknown token, in the column after the texts before it. -/
theorem readFrom_of_firstUnknown (column : Nat) (line : List Char) {before : List Token}
    (first : FirstUnknown (scan line) before character) :
    readFrom column line = .error ⟨column + (texts before).length, character⟩ := by
  match line with
  | [] =>
    obtain ⟨token, member, _⟩ := first.exists_unknown
    rw [scan] at member
    cases member
  | head :: rest =>
    obtain ⟨known, after, split⟩ := first
    rw [scan] at split
    cases before with
    | nil =>
      obtain ⟨same, _⟩ := List.cons.inj split
      have kind : Kind.ofFirst head = .unknown := congrArg Token.kind same
      have text : String.ofList (head :: rest.takeWhile (Kind.ofFirst head).continues) =
          String.ofList [character] :=
        (congrArg Token.text same).trans String.singleton_eq_ofList
      obtain ⟨rfl, _⟩ := List.cons.inj (String.ofList_injective text)
      rw [readFrom, if_pos kind]
      rfl
    | cons token before =>
      obtain ⟨rfl, others⟩ := List.cons.inj split
      obtain ⟨headKnown, known⟩ := List.forall_mem_cons.mp known
      have kind : Kind.ofFirst head ≠ .unknown := headKnown
      have later := readFrom_of_firstUnknown (column + (leading head rest).text.length)
        (afterLeading head rest) ⟨known, after, others⟩
      have length : (texts (leading head rest :: before)).length =
          (leading head rest).text.length + (texts before).length := by
        rw [texts_cons, List.length_append, String.length_toList]
      rw [readFrom, if_neg kind]
      dsimp only
      rw [later, length, Nat.add_assoc]
      rfl
termination_by line.length
decreasing_by exact length_afterLeading_lt head rest

/-- A line is read strictly exactly when it has no unknown token. -/
theorem read_eq_ok_iff :
    read line = .ok tokens ↔ tokens = scan line ∧ ∀ token ∈ tokens, token.kind ≠ .unknown := by
  constructor
  · intro equal
    obtain rfl := eq_scan_of_read equal
    refine ⟨rfl, fun token member unknown => ?_⟩
    obtain ⟨before, character, first⟩ := exists_firstUnknown ⟨token, member, unknown⟩
    rw [read, readFrom_of_firstUnknown 1 line first] at equal
    cases equal
  · rintro ⟨rfl, known⟩
    exact readFrom_eq_scan 1 line known

/-- It is refused for its first unknown token, and only for one. -/
theorem read_eq_error_iff {unknown : UnknownCharacter} :
    read line = .error unknown ↔ ∃ before, FirstUnknown (scan line) before unknown.character ∧
      unknown.column = 1 + (texts before).length := by
  constructor
  · intro equal
    have some : ∃ token ∈ scan line, token.kind = .unknown := by
      by_contra none
      push Not at none
      rw [read_eq_ok_iff.mpr ⟨rfl, none⟩] at equal
      cases equal
    obtain ⟨before, character, first⟩ := exists_firstUnknown some
    rw [read, readFrom_of_firstUnknown 1 line first] at equal
    cases equal
    exact ⟨before, first, rfl⟩
  · rintro ⟨before, first, column⟩
    rw [read, readFrom_of_firstUnknown 1 line first, ← column]

theorem exists_read_eq_error_iff :
    (∃ unknown, read line = .error unknown) ↔ ∃ token ∈ scan line, token.kind = .unknown := by
  constructor
  · rintro ⟨unknown, refused⟩
    obtain ⟨before, first, _⟩ := read_eq_error_iff.mp refused
    exact first.exists_unknown
  · intro some
    obtain ⟨before, character, first⟩ := exists_firstUnknown some
    exact ⟨⟨_, character⟩, read_eq_error_iff.mpr ⟨before, first, rfl⟩⟩

theorem ofLine_eq (permissive : Bool) {text : String} (single : '\n' ∉ text.toList) :
    ofLine permissive text =
      if permissive then .ok (scan text.toList) else (read text.toList).mapError .unknown := by
  have contains : text.toList.contains '\n' = false :=
    Bool.eq_false_iff.mpr fun feed => single (List.contains_iff_mem.mp feed)
  rw [ofLine, contains, if_neg Bool.false_ne_true]

end Token

/-! ### Lines of worksheets -/

open Token (read read_eq_ok_iff exists_read_eq_error_iff)

namespace Sheet

variable {catalog : Catalog} {names : Table Nat} {text : List Char}

/-- A line is marked as unreadable when a strict reading refuses it. -/
theorem tree_ofDraft_eq_token_iff {unknown : Token.UnknownCharacter} :
    (Line.ofDraft catalog names (Draft.ofText text)).tree = .error (.token unknown) ↔
      read text = .error unknown := by
  rw [Draft.ofText]
  split
  · next found refused =>
    rw [refused]
    exact ⟨fun equal => by cases equal; rfl, fun equal => by cases equal; rfl⟩
  · next raw accepted =>
    rw [accepted]
    refine ⟨fun equal => ?_, fun equal => by cases equal⟩
    obtain ⟨_, _, parse⟩ := mapError_eq_error.mp equal
    cases parse

theorem rawTokens_ofDraft (tokens : List Token) (accepted : read text = .ok tokens) :
    (Line.ofDraft catalog names (Draft.ofText text)).rawTokens = tokens := by
  rw [Line.ofDraft, Draft.ofText, accepted]

end Sheet

/-- For every single line a permissive reading gives tokens. A strict reading refuses the line
exactly when one of them is unknown; it then names the first such character and its column, counted
from one; and otherwise it gives the same tokens. So the tokens on the lines of a worksheet are
those that are highlighted, except for lines that are marked as unreadable. -/
theorem Token.strict_agrees_with_permissive :
    (∀ text : String, '\n' ∉ text.toList → ∃ tokens, ofLine true text = .ok tokens ∧
      ((∃ error, ofLine false text = .error error) ↔ ∃ token ∈ tokens, token.kind = .unknown) ∧
      (∀ error, ofLine false text = .error error → ∃ before character,
        FirstUnknown tokens before character ∧
        error = .unknown ⟨1 + (texts before).length, character⟩ ∧
        error.message = "col " ++ toString (1 + (texts before).length) ++
          ": unknown character: " ++ Text.quote (String.singleton character)) ∧
      ∀ others, ofLine false text = .ok others → others = tokens) ∧
    ∀ (catalog : Catalog) (source : String) (sheet : Sheet),
      Sheet.compile catalog source = .ok sheet →
      List.Forall₂ (fun line tokens =>
        ((∃ unknown, line.tree = .error (.token unknown)) ↔
          ∃ token ∈ tokens, token.kind = .unknown) ∧
        ((∀ unknown, line.tree ≠ .error (.token unknown)) → line.rawTokens = tokens))
        sheet.lines (Markup.tokens source) := by
  refine ⟨fun text single => ?_, fun catalog source sheet compiled => ?_⟩
  · rw [ofLine_eq true single, ofLine_eq false single, if_pos rfl, if_neg Bool.false_ne_true]
    refine ⟨scan text.toList, rfl, ?_, fun error refused => ?_,
      fun others accepted => (read_eq_ok_iff.mp (mapError_eq_ok.mp accepted)).1⟩
    · rw [← exists_read_eq_error_iff]
      simp only [mapError_eq_error]
      exact ⟨fun ⟨_, unknown, refused, _⟩ => ⟨unknown, refused⟩,
        fun ⟨unknown, refused⟩ => ⟨_, unknown, refused, rfl⟩⟩
    · obtain ⟨⟨column, character⟩, stopped, rfl⟩ := mapError_eq_error.mp refused
      obtain ⟨before, first, rfl⟩ := read_eq_error_iff.mp stopped
      exact ⟨before, character, first, rfl, rfl⟩
  · rw [(Sheet.compile_eq_ok_iff.mp compiled).1, Sheet.ofDrafts, Markup.tokens]
    dsimp only
    rw [List.forall₂_map_left_iff, List.forall₂_map_left_iff, List.forall₂_map_right_iff,
      List.forall₂_same]
    intro text _
    simp only [Sheet.tree_ofDraft_eq_token_iff]
    refine ⟨exists_read_eq_error_iff, fun unmarked => ?_⟩
    cases reading : read text with
    | error unknown => exact absurd (Sheet.tree_ofDraft_eq_token_iff.mpr reading) (unmarked unknown)
    | ok tokens =>
      rw [Sheet.rawTokens_ofDraft tokens reading]
      exact (read_eq_ok_iff.mp reading).1

/-- The unknown character after a number and a space is the sixth of its line; the same character in
a comment is none. -/
theorem Token.strict_stops_before_bracket :
    (∃ tokens before, ofLine true "12,5 §[m] # §" = .ok tokens ∧ FirstUnknown tokens before '§' ∧
      1 + (texts before).length = 6 ∧
      ofLine false "12,5 §[m] # §" = .error (.unknown ⟨6, '§'⟩)) ∧
    ∃ sheet first second, Sheet.compile Catalog.builtin "§ 2\n1 # §" = .ok sheet ∧
      sheet.lines = [first, second] ∧ (∃ unknown, first.tree = .error (.token unknown)) ∧
      second.rawTokens = [⟨.number, "1"⟩, ⟨.whitespace, " "⟩, ⟨.comment, "# §"⟩] := by
  constructor
  · obtain ⟨tokens, permissive, _, refused, _⟩ :=
      strict_agrees_with_permissive.1 "12,5 §[m] # §" (by decide)
    have stops : read "12,5 §[m] # §".toList = .error ⟨6, '§'⟩ := by cbv
    have strict : ofLine false "12,5 §[m] # §" = .error (.unknown ⟨6, '§'⟩) := by
      rw [ofLine_eq false (by decide), if_neg Bool.false_ne_true, stops]
      rfl
    obtain ⟨before, character, first, same, _⟩ := refused _ strict
    obtain ⟨column, rfl⟩ := UnknownCharacter.mk.inj (LineError.unknown.inj same)
    exact ⟨tokens, before, permissive, first, column.symm, strict⟩
  · have acyclic : (Draft.dependencies
        ((Text.sheetLines "§ 2\n1 # §").map Draft.ofText)).isCyclic = false := by cbv
    obtain ⟨sheet, compiled⟩ : ∃ sheet, Sheet.compile Catalog.builtin "§ 2\n1 # §" = .ok sheet :=
      ⟨_, Sheet.compile_eq_ok_iff.mpr ⟨rfl, by rw [Sheet.dependencies_ofDrafts, acyclic]⟩⟩
    have highlighted : Markup.tokens "§ 2\n1 # §" =
        [[⟨.unknown, "§"⟩, ⟨.whitespace, " "⟩, ⟨.number, "2"⟩],
          [⟨.number, "1"⟩, ⟨.whitespace, " "⟩, ⟨.comment, "# §"⟩]] := by cbv
    have beside := strict_agrees_with_permissive.2 _ _ _ compiled
    rw [highlighted] at beside
    obtain ⟨first, _, ⟨marked, _⟩, later, lines⟩ := List.forall₂_cons_right_iff.mp beside
    obtain ⟨second, _, ⟨unmarked, kept⟩, last, rfl⟩ := List.forall₂_cons_right_iff.mp later
    rw [List.forall₂_nil_right_iff.mp last] at lines
    refine ⟨sheet, first, second, compiled, lines, marked.mpr ?_, kept fun unknown equal => ?_⟩
    · exact ⟨_, List.mem_cons_self, rfl⟩
    · obtain ⟨token, member, kind⟩ := unmarked.mp ⟨unknown, equal⟩
      revert token
      decide

end UnitSheet
