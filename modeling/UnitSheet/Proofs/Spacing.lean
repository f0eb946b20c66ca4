/-
This file says that spacing and comments carry no meaning.

A line can be written anew from its meaningful tokens alone, with any spacing around them and any
comment after them (`Token.Spaced`). No token goes on with a space, a tabulator or a number sign, so
every text is cut as the token that it came from, wherever it is put (`scan_token`); spacing and
comments are cut as tokens without meaning. The tokens of the new line are therefore those of the
old one, and a document in which lines are written anew has the same drafts apart from the raw
tokens, which nothing but highlighting looks at.
-/

import UnitSheet.Proofs.Correspondence
import UnitSheet.Proofs.Strictness
import UnitSheet.Proofs.Totality

namespace UnitSheet

namespace Token

/-! ### Lines written anew -/

/-- Spaces and tabulators, or nothing. -/
def IsGap (text : List Char) : Prop :=
  ∀ character ∈ text, isSpacing character = true

/-- The texts of tokens in their order, with a gap between any two of them. -/
inductive Separated : List Token → List Char → Prop
  | none : Separated [] []
  | last (token : Token) : Separated [token] token.text.toList
  | next {token later : Token} {tokens : List Token} {gap rest : List Char} :
      gap ≠ [] → IsGap gap → Separated (later :: tokens) rest →
      Separated (token :: later :: tokens) (token.text.toList ++ (gap ++ rest))

/-- A comment, or nothing. -/
inductive Remark : List Char → Prop
  | none : Remark []
  | comment {words : List Char} : '\n' ∉ words → Remark ('#' :: words)

/-- A line made of the texts of tokens, gaps between and around them, and a remark. -/
inductive Spaced (tokens : List Token) : List Char → Prop
  | line {front body back remark : List Char} : IsGap front → Separated tokens body →
      IsGap back → Remark remark → Spaced tokens (front ++ (body ++ (back ++ remark)))

variable {line rest gap : List Char} {tokens raw : List Token} {token : Token}

/-! ### Cutting them -/

theorem meaningful_scan_dropWhile (line : List Char) :
    meaningful (scan (line.dropWhile isSpacing)) = meaningful (scan line) := by
  cases line with
  | nil => rfl
  | cons first rest =>
    by_cases spacing : isSpacing first = true
    · have rule : Rule .whitespace [first] :=
        .whitespace spacing fun _ member => absurd member List.not_mem_nil
      have kind : Kind.ofFirst first = .whitespace := ofFirst_of_rule rule
      have cut : meaningful (scan (first :: rest)) =
          meaningful (scan (afterLeading first rest)) := by
        rw [scan, meaningful_cons_of_not (by rw [leading]; dsimp only; rw [kind]; rfl)]
      rw [cut, afterLeading, kind, List.dropWhile_cons_of_pos spacing]
      rfl
    · rw [List.dropWhile_cons_of_neg spacing]

/-- A gap before the rest of a line has no meaning. -/
theorem meaningful_scan_gap (isGap : IsGap gap) :
    meaningful (scan (gap ++ rest)) = meaningful (scan rest) := by
  rw [← meaningful_scan_dropWhile (gap ++ rest), List.dropWhile_append_of_pos isGap,
    meaningful_scan_dropWhile]

theorem meaningful_scan_remark (remark : Remark line) : meaningful (scan line) = [] := by
  cases remark with
  | none => rw [scan]; rfl
  | @comment words =>
    have all := @scan_run '#' words [] (fun _ _ => rfl) fun _ member => by cases member
    rw [List.append_nil] at all
    rw [all, scan]
    rfl

/-- The tokens that a strict reading of a line finds meaningful: each has a text of its kind. -/
def Plain (tokens : List Token) : Prop :=
  ∀ token ∈ tokens, Fits token.kind token.text.toList ∧ token.kind.isMeaningful = true ∧
    token.kind ≠ .unknown

theorem plain_of_read (accepted : read line = .ok raw) : Plain (meaningful raw) := by
  obtain ⟨rfl, known⟩ := read_eq_ok_iff.mp accepted
  intro token member
  obtain ⟨among, meaning⟩ := List.mem_filter.mp member
  exact ⟨(cuts_scan line).fits token among, meaning, known token among⟩

/-- The rest of a line goes on with no token that has a meaning. -/
def EndsToken (rest : List Char) : Prop :=
  ∀ next ∈ rest.head?, isSpacing next = true ∨ next = '#'

theorem EndsToken.stops {kind : Kind} (ends : EndsToken rest) (meaning : kind.isMeaningful = true) :
    ∀ next ∈ rest.head?, kind.continues next = false := by
  intro next member
  have either : next = ' ' ∨ next = '\t' ∨ next = '#' := by
    rcases ends next member with spacing | sign
    · rw [isSpacing, Bool.or_eq_true, beq_iff_eq, beq_iff_eq] at spacing
      exact or_assoc.mp (.inl spacing)
    · exact .inr (.inr sign)
  cases kind with
  | comment | whitespace => cases meaning
  | number | literal => rcases either with rfl | rfl | rfl <;> decide
  | operator | paren | bracket | definition | unknown => rfl

/-- Every text is cut as the token that it came from. -/
theorem scan_token (fits : Fits token.kind token.text.toList)
    (meaning : token.kind.isMeaningful = true) (ends : EndsToken rest) :
    scan (token.text.toList ++ rest) = token :: scan rest := by
  obtain ⟨first, run, spelled, kind, goesOn⟩ := fits.exists_cons
  rw [spelled, List.cons_append, scan_run (kind ▸ goesOn) (kind ▸ ends.stops meaning), kind,
    ← spelled, String.ofList_toList]

theorem endsToken_gap_append (isGap : IsGap gap) (some : gap ≠ []) : EndsToken (gap ++ rest) := by
  cases gap with
  | nil => exact absurd rfl some
  | cons blank gap =>
    rintro _ ⟨⟩
    exact .inl (isGap blank List.mem_cons_self)

theorem Remark.endsToken (remark : Remark line) : EndsToken line := by
  cases remark with
  | none => exact nofun
  | comment =>
    rintro _ ⟨⟩
    exact .inr rfl

theorem meaningful_scan_separated (separated : Separated tokens line) (plain : Plain tokens)
    (ends : EndsToken rest) :
    meaningful (scan (line ++ rest)) = tokens ++ meaningful (scan rest) := by
  induction separated with
  | none => rfl
  | last token =>
    obtain ⟨fits, meaning, _⟩ := plain token List.mem_cons_self
    rw [scan_token fits meaning ends, meaningful_cons meaning]
    rfl
  | @next token later tokens gap body some isGap _ inductionHypothesis =>
    obtain ⟨⟨fits, meaning, _⟩, plain⟩ := List.forall_mem_cons.mp plain
    rw [List.append_assoc, List.append_assoc,
      scan_token fits meaning (endsToken_gap_append isGap some), meaningful_cons meaning,
      meaningful_scan_gap isGap, inductionHypothesis plain]
    rfl

/-- A line written anew has the tokens that it was written from. -/
theorem meaningful_scan_spaced (spaced : Spaced tokens line) (plain : Plain tokens) :
    meaningful (scan line) = tokens := by
  obtain @⟨front, body, back, remark, frontGap, separated, backGap, isRemark⟩ := spaced
  have ends : EndsToken (back ++ remark) := by
    cases back with
    | nil => exact isRemark.endsToken
    | cons blank back => exact endsToken_gap_append backGap (List.cons_ne_nil _ _)
  rw [meaningful_scan_gap frontGap, meaningful_scan_separated separated plain ends,
    meaningful_scan_gap backGap, meaningful_scan_remark isRemark, List.append_nil]

/-- It is read strictly, since an unknown token would be a meaningful one. -/
theorem read_of_spaced (accepted : read line = .ok raw) {other : List Char}
    (spaced : Spaced (meaningful raw) other) :
    ∃ others, read other = .ok others ∧ meaningful others = meaningful raw := by
  have plain := plain_of_read accepted
  have same := meaningful_scan_spaced spaced plain
  refine ⟨scan other, read_eq_ok_iff.mpr ⟨rfl, fun token member unknown => ?_⟩, same⟩
  have meaning : token ∈ meaningful (scan other) :=
    List.mem_filter.mpr ⟨member, by rw [unknown]; rfl⟩
  exact (plain token (same ▸ meaning)).2.2 unknown

/-! ### Single lines -/

theorem newline_notMem_of_read (accepted : read line = .ok raw) (single : '\n' ∉ line) :
    ∀ token ∈ meaningful raw, '\n' ∉ token.text.toList := by
  obtain ⟨rfl, _⟩ := read_eq_ok_iff.mp accepted
  intro token member feed
  rw [← (cuts_scan line).whole] at single
  exact single (List.mem_flatMap.mpr ⟨token, List.mem_of_mem_filter member, feed⟩)

theorem newline_notMem_gap (isGap : IsGap gap) : '\n' ∉ gap :=
  fun member => absurd (isGap _ member) (by decide)

theorem newline_notMem_separated (separated : Separated tokens line)
    (single : ∀ token ∈ tokens, '\n' ∉ token.text.toList) : '\n' ∉ line := by
  induction separated with
  | none => exact List.not_mem_nil
  | last token => exact single token List.mem_cons_self
  | next _ isGap _ inductionHypothesis =>
    obtain ⟨first, single⟩ := List.forall_mem_cons.mp single
    rw [List.mem_append, List.mem_append, not_or, not_or]
    exact ⟨first, newline_notMem_gap isGap, inductionHypothesis single⟩

theorem newline_notMem_spaced (spaced : Spaced tokens line)
    (single : ∀ token ∈ tokens, '\n' ∉ token.text.toList) : '\n' ∉ line := by
  obtain @⟨front, body, back, remark, frontGap, separated, backGap, isRemark⟩ := spaced
  have ending : '\n' ∉ remark := by
    cases isRemark with
    | none => exact List.not_mem_nil
    | comment single => exact List.not_mem_cons_of_ne_of_not_mem (by decide) single
  rw [List.mem_append, List.mem_append, List.mem_append, not_or, not_or, not_or]
  exact ⟨newline_notMem_gap frontGap, newline_notMem_separated separated single,
    newline_notMem_gap backGap, ending⟩

end Token

open Token (read meaningful Spaced)

/-! ### Documents -/

/-- A line is kept or, if it can be read strictly, written anew. -/
inductive Respaced : List Char → List Char → Prop
  | kept (line : List Char) : Respaced line line
  | anew {line other : List Char} {raw : List Token} :
      read line = .ok raw → Spaced (meaningful raw) other → Respaced line other

namespace Draft

/-- A draft without the tokens that have no meaning. -/
def bare (draft : Draft) : Draft :=
  { draft with rawTokens := [] }

theorem bare_ofText {line other : List Char} (respaced : Respaced line other) :
    (ofText line).bare = (ofText other).bare := by
  cases respaced with
  | kept => rfl
  | anew accepted spaced =>
    obtain ⟨others, otherAccepted, same⟩ := Token.read_of_spaced accepted spaced
    rw [ofText, ofText, accepted, otherAccepted]
    dsimp only [bare]
    rw [same]

theorem map_bare_ofText {lines others : List (List Char)}
    (respaced : List.Forall₂ Respaced lines others) :
    (lines.map ofText).map bare = (others.map ofText).map bare := by
  rw [List.map_map, List.map_map]
  exact List.forall₂_eq_eq_eq ▸ List.forall₂_map_left_iff.mpr
    (List.forall₂_map_right_iff.mpr (respaced.imp fun _ _ => bare_ofText))

/-- What lines declare and mention does not depend on raw tokens. -/
theorem declarations_map_bare (drafts : List Draft) :
    declarations (drafts.map bare) = declarations drafts := by
  rw [declarations, declarations, List.zipIdx_map, List.filterMap_map]
  rfl

theorem dependencies_map_bare (drafts : List Draft) :
    dependencies (drafts.map bare) = dependencies drafts := by
  rw [dependencies, dependencies, declarations_map_bare, List.map_map]
  rfl

end Draft

namespace Sheet

variable {catalog : Catalog}

/-- A line without its raw tokens. -/
def Line.bare (line : Line) : Line :=
  { line with rawTokens := [] }

/-- A worksheet without raw tokens. -/
def bare (sheet : Sheet) : Sheet :=
  { sheet with lines := sheet.lines.map Line.bare }

theorem bare_ofDrafts (drafts : List Draft) :
    (ofDrafts catalog drafts).bare = ofDrafts catalog (drafts.map Draft.bare) := by
  have order : (drafts.map Draft.bare).map (Draft.mentioned (Draft.declarations drafts)) =
      drafts.map (Draft.mentioned (Draft.declarations drafts)) := List.map_map
  simp only [bare, ofDrafts, Draft.declarations_map_bare, order, List.map_map]
  rfl

variable (sheet : Sheet) (outcomes : List Outcome)

theorem unevaluated_bare : sheet.bare.unevaluated = sheet.unevaluated :=
  List.map_map

theorem meaning_bare : sheet.bare.meaning outcomes = sheet.meaning outcomes := by
  funext name
  simp only [meaning, bare, List.getElem?_map]
  cases sheet.names.find? name with
  | none => rfl
  | some index =>
    dsimp only
    cases sheet.lines[index]? with
    | none => rfl
    | some line => rcases outcomes[index]? with _ | _ | _ <;> rfl

theorem evaluateLine_bare (index : Nat) :
    sheet.bare.evaluateLine outcomes index = sheet.evaluateLine outcomes index := by
  simp only [evaluateLine, meaning_bare]
  simp only [bare, List.getElem?_map]
  cases sheet.lines[index]? with
  | none => rfl
  | some line => rcases outcomes[index]? with _ | _ | _ <;> rfl

/-- Evaluation does not look at raw tokens. -/
theorem evaluate_bare : sheet.bare.evaluate outcomes = sheet.evaluate outcomes := by
  have steps : sheet.bare.evaluateLine = sheet.evaluateLine := by
    funext outcomes index
    exact evaluateLine_bare sheet outcomes index
  rw [evaluate, evaluate, steps]
  rfl

end Sheet

/-- Spacing and comments carry no meaning. The line that is written anew from the tokens of a line
that is read strictly is read strictly as well, and its meaningful tokens are the same. A document
in which lines are written anew is refused for a cycle if and only if the original one is; and
otherwise all its lines have the same names and trees, and the same outcomes. -/
theorem spacing_without_meaning :
    (∀ (text other : String) (raw : List Token), Token.ofLine false text = .ok raw →
      Spaced (meaningful raw) other.toList →
      ∃ others, Token.ofLine false other = .ok others ∧ meaningful others = meaningful raw) ∧
    ∀ (catalog : Catalog) (source respaced : String),
      List.Forall₂ Respaced (Text.sheetLines source) (Text.sheetLines respaced) →
      (Sheet.compile catalog source = .error ⟨⟩ ∧ Sheet.compile catalog respaced = .error ⟨⟩) ∨
      ∃ sheet other outcomes, Sheet.run catalog source = .ok (sheet, outcomes) ∧
        Sheet.run catalog respaced = .ok (other, outcomes) ∧ other.bare = sheet.bare := by
  refine ⟨fun text other raw accepted spaced => ?_, fun catalog source respaced lines => ?_⟩
  · have single : '\n' ∉ text.toList := by
      intro feed
      rw [Token.ofLine, if_pos (List.contains_iff_mem.mpr feed)] at accepted
      cases accepted
    rw [Token.ofLine_eq false single, if_neg Bool.false_ne_true, mapError_eq_ok] at accepted
    obtain ⟨others, read, same⟩ := Token.read_of_spaced accepted spaced
    have otherSingle : '\n' ∉ other.toList :=
      Token.newline_notMem_spaced spaced (Token.newline_notMem_of_read accepted single)
    refine ⟨others, ?_, same⟩
    rw [Token.ofLine_eq false otherSingle, if_neg Bool.false_ne_true, mapError_eq_ok]
    exact read
  · have drafts := Draft.map_bare_ofText lines
    have dependencies := congrArg Draft.dependencies drafts
    rw [Draft.dependencies_map_bare, Draft.dependencies_map_bare] at dependencies
    cases cyclic : (Draft.dependencies ((Text.sheetLines source).map Draft.ofText)).isCyclic with
    | true =>
      exact .inl ⟨Sheet.compile_eq_error_iff.mpr cyclic,
        Sheet.compile_eq_error_iff.mpr (dependencies ▸ cyclic)⟩
    | false =>
      obtain ⟨sheet, outcomes, ran, _⟩ := Sheet.exists_run_of_acyclic catalog cyclic
      obtain ⟨compiled, evaluated⟩ := Sheet.run_eq_ok_iff.mp ran
      have recompiled : Sheet.compile catalog respaced = .ok _ :=
        Sheet.compile_eq_ok_iff.mpr ⟨rfl, by
          rw [Sheet.dependencies_ofDrafts, ← dependencies, cyclic]⟩
      obtain ⟨rfl, _⟩ := Sheet.compile_eq_ok_iff.mp compiled
      have same := congrArg (Sheet.ofDrafts catalog) drafts.symm
      rw [← Sheet.bare_ofDrafts, ← Sheet.bare_ofDrafts] at same
      refine .inr ⟨_, _, outcomes, ran, Sheet.run_eq_ok_iff.mpr ⟨recompiled, ?_⟩, same⟩
      rw [← Sheet.evaluate_bare, ← Sheet.unevaluated_bare, same, Sheet.evaluate_bare,
        Sheet.unevaluated_bare, evaluated]

/-- A product keeps its tokens under other spacing and another comment, and its line keeps its
outcome. -/
theorem spacing_without_meaning_of_product :
    (∃ others, Token.ofLine false "\t3  *\t x #§" = .ok others ∧
      meaningful others = [⟨.number, "3"⟩, ⟨.operator, "*"⟩, ⟨.literal, "x"⟩]) ∧
    ∃ sheet other outcomes, Sheet.run Catalog.builtin "x: 2\n3 *x# old" = .ok (sheet, outcomes) ∧
      Sheet.run Catalog.builtin "x: 2\n\t3  *\t x #§" = .ok (other, outcomes) := by
  obtain ⟨raw, original, kept⟩ : ∃ raw, read "3 *x# old".toList = .ok raw ∧
      meaningful raw = [⟨.number, "3"⟩, ⟨.operator, "*"⟩, ⟨.literal, "x"⟩] := by
    refine ⟨[⟨.number, "3"⟩, ⟨.whitespace, " "⟩, ⟨.operator, "*"⟩, ⟨.literal, "x"⟩,
      ⟨.comment, "# old"⟩], ?_, rfl⟩
    cbv
  have spaced : Spaced (meaningful raw) "\t3  *\t x #§".toList := by
    have front : Token.IsGap ['\t'] := by simp [Token.IsGap, Token.isSpacing]
    have first : Token.IsGap [' ', ' '] := by simp [Token.IsGap, Token.isSpacing]
    have second : Token.IsGap ['\t', ' '] := by simp [Token.IsGap, Token.isSpacing]
    have back : Token.IsGap [' '] := by simp [Token.IsGap, Token.isSpacing]
    have comment : Token.Remark ['#', '§'] := .comment (by decide)
    rw [kept]
    exact .line front (.next (by decide) first (.next (by decide) second (.last _))) back comment
  obtain ⟨single, document⟩ := spacing_without_meaning
  constructor
  · rw [← kept]
    refine single "3 *x# old" "\t3  *\t x #§" raw ?_ spaced
    rw [Token.ofLine_eq false (by decide), if_neg Bool.false_ne_true, original]
    rfl
  · have lines : Text.sheetLines "x: 2\n3 *x# old" = ["x: 2".toList, "3 *x# old".toList] := by cbv
    have anew : Text.sheetLines "x: 2\n\t3  *\t x #§" =
        ["x: 2".toList, "\t3  *\t x #§".toList] := by cbv
    have respaced : List.Forall₂ Respaced (Text.sheetLines "x: 2\n3 *x# old")
        (Text.sheetLines "x: 2\n\t3  *\t x #§") := by
      rw [lines, anew]
      exact .cons (.kept _) (.cons (.anew original spaced) .nil)
    have acyclic : (Draft.dependencies
        ((Text.sheetLines "x: 2\n3 *x# old").map Draft.ofText)).isCyclic = false := by cbv
    rcases document Catalog.builtin _ _ respaced with ⟨refused, _⟩ | both
    · rw [Sheet.compile_eq_error_iff, acyclic] at refused
      cases refused
    · obtain ⟨sheet, other, outcomes, ran, reran, _⟩ := both
      exact ⟨sheet, other, outcomes, ran, reran⟩

end UnitSheet
