/-
This file says that highlighting and reading agree on what is unit text.

Highlighting goes through the tokens with one flag: a bracket is open or not (`Token.inUnitAfter`).
The flag is set at a token exactly if some opening sign has not been closed since
(`Token.inUnit_iff`), which can be said without going through the tokens. Reading has open groups
and waiting functions besides its bracket, but a step that succeeds moves the bracket as the flag
moves (`Reading.isSome_bracket_of_step`), since no bracket is opened in a bracket and none is closed
outside of one. So both mark the same tokens of a line that is read. Spacing, comments and the
declared name of a line are no brackets and leave the flag alone.
-/

import UnitSheet.Markup
import UnitSheet.Proofs.Linked
import UnitSheet.Proofs.Masking
import UnitSheet.Proofs.Words

namespace UnitSheet

/-! ### Tokens in unit text -/

namespace Token

/-- A token stands in unit text: an opening sign, at its place or before it, is not closed before
it. -/
def InUnit (tokens : List Token) (index : Nat) : Prop :=
  ∃ start ≤ index, (∃ token, tokens[start]? = some token ∧ token.isSign .bracket "[" = true) ∧
    ∀ between, start ≤ between → between < index → ∀ token, tokens[between]? = some token →
      token.isSign .bracket "]" = false

/-- Whether a bracket is open after some tokens, given whether one is open before them. -/
def openAfter (wasOpen : Bool) (tokens : List Token) : Bool :=
  tokens.foldl inUnitAfter wasOpen

variable {tokens : List Token} {token : Token} {index : Nat}

/-- No sign both opens and closes a bracket. -/
theorem inUnitAfter_eq (inUnit : Bool) (token : Token) :
    ((inUnit || token.isSign .bracket "[") && !token.isSign .bracket "]") =
      token.inUnitAfter inUnit := by
  cases inUnit with
  | true => rw [Bool.true_or, Bool.true_and, inUnitAfter, if_pos rfl]
  | false =>
    rw [Bool.false_or, inUnitAfter, if_neg Bool.false_ne_true, isSign, isSign]
    by_cases opening : token.text = "["
    · rw [opening]
      cases token.kind <;> rfl
    · rw [beq_false_of_ne opening, Bool.and_false, Bool.false_and]

theorem openAfter_concat (wasOpen : Bool) (tokens : List Token) (token : Token) :
    openAfter wasOpen (tokens ++ [token]) = token.inUnitAfter (openAfter wasOpen tokens) := by
  rw [openAfter, List.foldl_append]
  rfl

/-- A token that is no bracket changes nothing. -/
theorem inUnitAfter_of_ne (other : token.kind ≠ .bracket) (inUnit : Bool) :
    token.inUnitAfter inUnit = inUnit := by
  rw [inUnitAfter, isSign, isSign, beq_false_of_ne other]
  cases inUnit <;> rfl

/-- A bracket is open after the first tokens if one of their opening signs has not been closed. -/
theorem openAfter_take_iff (within : index ≤ tokens.length) :
    openAfter false (tokens.take index) = true ↔ ∃ start < index,
      (∃ token, tokens[start]? = some token ∧ token.isSign .bracket "[" = true) ∧
        ∀ between, start ≤ between → between < index → ∀ token, tokens[between]? = some token →
          token.isSign .bracket "]" = false := by
  induction index with
  | zero => simp [openAfter]
  | succ index inductionHypothesis =>
    have here : tokens[index]? = some tokens[index] := List.getElem?_eq_getElem within
    rw [List.take_add_one, here, Option.toList_some, openAfter_concat, ← inUnitAfter_eq,
      Bool.and_eq_true, Bool.or_eq_true, Bool.not_eq_true',
      inductionHypothesis (Nat.le_of_lt within)]
    constructor
    · rintro ⟨⟨start, before, opening, unclosed⟩ | opening, notClosing⟩
      · refine ⟨start, Nat.lt_succ_of_lt before, opening, fun between after upTo token found => ?_⟩
        rcases Nat.lt_succ_iff_lt_or_eq.mp upTo with earlier | rfl
        · exact unclosed between after earlier token found
        · cases here.symm.trans found
          exact notClosing
      · refine ⟨index, Nat.lt_succ_self _, ⟨_, here, opening⟩, ?_⟩
        intro between after upTo token found
        obtain rfl : between = index := Nat.le_antisymm (Nat.le_of_lt_succ upTo) after
        cases here.symm.trans found
        exact notClosing
    · rintro ⟨start, upTo, opening, unclosed⟩
      refine ⟨?_, unclosed index (Nat.le_of_lt_succ upTo) (Nat.lt_succ_self _) _ here⟩
      rcases Nat.lt_succ_iff_lt_or_eq.mp upTo with before | rfl
      · refine .inl ⟨start, before, opening, fun between after earlier => ?_⟩
        exact unclosed between after (Nat.lt_succ_of_lt earlier)
      · obtain ⟨token, found, opens⟩ := opening
        cases here.symm.trans found
        exact .inr opens

/-- A token stands in unit text if a bracket is open before it or it opens one. -/
theorem inUnit_iff (found : tokens[index]? = some token) :
    InUnit tokens index ↔
      (openAfter false (tokens.take index) || token.isSign .bracket "[") = true := by
  obtain ⟨within, _⟩ := List.getElem?_eq_some_iff.mp found
  rw [Bool.or_eq_true, openAfter_take_iff (Nat.le_of_lt within)]
  constructor
  · rintro ⟨start, upTo, opening, unclosed⟩
    rcases Nat.lt_or_eq_of_le upTo with before | rfl
    · exact .inl ⟨start, before, opening, unclosed⟩
    · obtain ⟨known, also, opens⟩ := opening
      cases found.symm.trans also
      exact .inr opens
  · rintro (⟨start, before, opening, unclosed⟩ | opens)
    · exact ⟨start, Nat.le_of_lt before, opening, unclosed⟩
    · refine ⟨index, le_rfl, ⟨token, found, opens⟩, fun between after before => ?_⟩
      exact absurd before (Nat.not_lt.mpr after)

end Token

/-! ### What is highlighted -/

namespace Markup

/-- The class of a token in unit text. -/
def isUnitClass (name : String) : Bool :=
  "-unit".toList.isSuffixOf name.toList

theorem isUnitClass_append (name : String) : isUnitClass (name ++ "-unit") = true := by
  rw [isUnitClass, String.toList_append, List.isSuffixOf_iff_suffix]
  exact List.suffix_append _ _

theorem isUnitClass_tokenClass (token : Token) : isUnitClass (tokenClass token) = false := by
  unfold tokenClass
  split_ifs
  · generalize token.kind = kind
    cases kind <;> decide
  · decide
  · decide
  · decide

/-- The class that a token gets. -/
def markedClass (inUnit : Bool) (token : Token) : String :=
  if inUnit || token.isSign .bracket "[" then tokenClass token ++ "-unit" else tokenClass token

theorem classifyFrom_cons (inUnit : Bool) (token : Token) (rest : List Token) :
    classifyFrom inUnit (token :: rest) = (markedClass inUnit token, token.text) ::
      classifyFrom (token.inUnitAfter inUnit) rest := by
  rw [classifyFrom, ← Token.inUnitAfter_eq]
  rfl

theorem isUnitClass_markedClass (inUnit : Bool) (token : Token) :
    isUnitClass (markedClass inUnit token) = (inUnit || token.isSign .bracket "[") := by
  unfold markedClass
  split
  · rename_i marked
    rw [isUnitClass_append, marked]
  · rename_i unmarked
    rw [isUnitClass_tokenClass, Bool.eq_false_iff.mpr unmarked]

theorem texts_classifyFrom (inUnit : Bool) (tokens : List Token) :
    (classifyFrom inUnit tokens).map Prod.snd = tokens.map Token.text := by
  induction tokens generalizing inUnit with
  | nil => rfl
  | cons token rest inductionHypothesis =>
    rw [classifyFrom_cons, List.map_cons, List.map_cons, inductionHypothesis]

theorem getElem?_classifyFrom {inUnit : Bool} {tokens : List Token} {index : Nat} {token : Token}
    (found : tokens[index]? = some token) : (classifyFrom inUnit tokens)[index]? =
      some (markedClass (Token.openAfter inUnit (tokens.take index)) token, token.text) := by
  induction tokens generalizing inUnit index with
  | nil => cases found
  | cons first rest inductionHypothesis =>
    cases index with
    | zero =>
      cases found
      rfl
    | succ index =>
      rw [classifyFrom_cons]
      exact inductionHypothesis found

/-- The tokens with whether they are highlighted as unit text. -/
def unitMarks (inUnit : Bool) (tokens : List Token) : List (Token × Bool) :=
  tokens.zip ((classifyFrom inUnit tokens).map fun classified => isUnitClass classified.1)

theorem unitMarks_cons (inUnit : Bool) (token : Token) (rest : List Token) :
    unitMarks inUnit (token :: rest) = (token, inUnit || token.isSign .bracket "[") ::
      unitMarks (token.inUnitAfter inUnit) rest := by
  rw [unitMarks, classifyFrom_cons, List.map_cons, List.zip_cons_cons, isUnitClass_markedClass]
  rfl

/-- Spacing and comments do not matter for what is unit text. -/
theorem filter_unitMarks (inUnit : Bool) (tokens : List Token) :
    (unitMarks inUnit tokens).filter (fun mark => mark.1.kind.isMeaningful) =
      unitMarks inUnit (Token.meaningful tokens) := by
  induction tokens generalizing inUnit with
  | nil => rfl
  | cons token rest inductionHypothesis =>
    rw [unitMarks_cons, List.filter_cons, inductionHypothesis]
    cases meaning : token.kind.isMeaningful with
    | true => rw [if_pos rfl, Token.meaningful_cons meaning, unitMarks_cons]
    | false =>
      have other : token.kind ≠ .bracket := by
        intro same
        rw [same] at meaning
        cases meaning
      rw [if_neg Bool.false_ne_true, Token.meaningful_cons_of_not meaning,
        Token.inUnitAfter_of_ne other]

/-- A declared name in front of an expression is not unit text. -/
theorem unitMarks_append_of_ne {declaration : List Token}
    (other : ∀ token ∈ declaration, token.kind ≠ .bracket) (tokens : List Token) :
    unitMarks false (declaration ++ tokens) =
      declaration.map (·, false) ++ unitMarks false tokens := by
  induction declaration with
  | nil => rfl
  | cons token rest inductionHypothesis =>
    obtain ⟨atToken, inRest⟩ := List.forall_mem_cons.mp other
    rw [List.cons_append, unitMarks_cons, Token.inUnitAfter_of_ne atToken,
      inductionHypothesis inRest, Token.isSign, beq_false_of_ne atToken]
    rfl

end Markup

/-! ### What is read -/

namespace Reading

variable {vocabulary : Vocabulary} {reading next : Reading} {token : Token} {tokens : List Token}

/-- For each token, whether the reading takes it as a part of a unit bracket: a bracket is open
before it, or it opens one. -/
def unitParts (vocabulary : Vocabulary) (reading : Reading) :
    List Token → Except ParseError (List Bool)
  | [] => .ok []
  | token :: rest => do
    let next ← reading.step vocabulary token
    let others ← unitParts vocabulary next rest
    return (reading.bracket.isSome || next.bracket.isSome) :: others

/-- After some tokens, the reading has a bracket open if highlighting has. -/
theorem isSome_bracket_foldlM {last : Reading}
    (read : tokens.foldlM (step vocabulary) reading = .ok last) :
    last.bracket.isSome = Token.openAfter reading.bracket.isSome tokens := by
  induction tokens generalizing reading with
  | nil =>
    cases read
    rfl
  | cons token rest inductionHypothesis =>
    rw [List.foldlM_cons] at read
    obtain ⟨next, taken, read⟩ := bind_eq_ok.mp read
    rw [inductionHypothesis read, isSome_bracket_of_step taken]
    rfl

/-- A token that a bracket is open after is marked, also if it opens the bracket. -/
theorem marked_of_step (taken : reading.step vocabulary token = .ok next) :
    (reading.bracket.isSome || next.bracket.isSome) =
      (reading.bracket.isSome || token.isSign .bracket "[") := by
  rw [isSome_bracket_of_step taken, Token.inUnitAfter]
  cases reading.bracket.isSome <;> rfl

/-- Tokens that are read are taken in a bracket exactly where they are highlighted as unit text. -/
theorem exists_unitParts {last : Reading}
    (read : tokens.foldlM (step vocabulary) reading = .ok last) :
    ∃ parts, reading.unitParts vocabulary tokens = .ok parts ∧
      Markup.unitMarks reading.bracket.isSome tokens = tokens.zip parts := by
  induction tokens generalizing reading with
  | nil => exact ⟨[], rfl, rfl⟩
  | cons token rest inductionHypothesis =>
    rw [List.foldlM_cons] at read
    obtain ⟨next, taken, read⟩ := bind_eq_ok.mp read
    obtain ⟨parts, known, marks⟩ := inductionHypothesis read
    refine ⟨(reading.bracket.isSome || next.bracket.isSome) :: parts, ?_, ?_⟩
    · rw [unitParts, taken]
      show (unitParts vocabulary next rest >>= _) = _
      rw [known]
      rfl
    · rw [Markup.unitMarks_cons, ← isSome_bracket_of_step taken, marks, marked_of_step taken]
      rfl

end Reading

namespace Node

/-- The tokens of a line that has a tree can be read. -/
theorem exists_foldlM_of_ofLine {vocabulary : Vocabulary} {tokens : List Token} {tree : Node}
    (equal : ofLine vocabulary tokens = .ok tree) :
    ∃ last, tokens.foldlM (Reading.step vocabulary) Reading.start = .ok last := by
  by_cases blank : tokens = []
  · subst blank
    exact ⟨Reading.start, rfl⟩
  · obtain ⟨node, read, _⟩ := folds_of_ofLine blank equal
    obtain ⟨last, read, _⟩ := bind_eq_ok.mp read
    exact ⟨last, read⟩

end Node

/-! ### Agreement -/

/-- A declared name comes before the tokens of the expression, and is no bracket. -/
theorem Draft.exists_declaration (tokens : List Token) :
    ∃ declaration, tokens = declaration ++ (splitDeclaration tokens).2 ∧
      ∀ token ∈ declaration, token.kind ≠ .bracket := by
  match tokens with
  | [] | [_] => exact ⟨[], rfl, List.forall_mem_nil _⟩
  | first :: second :: rest =>
    rw [splitDeclaration]
    split
    · rename_i declares
      refine ⟨[first, second], rfl, ?_⟩
      rw [List.forall_mem_cons, List.forall_mem_singleton, declares.1, declares.2]
      decide
    · exact ⟨[], rfl, List.forall_mem_nil _⟩

/-- Highlighting keeps the texts of the tokens and marks as unit text what follows an opening sign,
itself included, up to the closing one; of a line that has a tree, these are the tokens of the
expression that are read in a unit bracket, whatever is declared, spaced or commented around it. -/
theorem Markup.classify_agrees_with_reading (raw : List Token) :
    (classify raw).map Prod.snd = raw.map Token.text ∧
    (∀ index token, raw[index]? = some token →
      ∃ name, (classify raw)[index]? = some (name, token.text) ∧
        (name = tokenClass token ∨ name = tokenClass token ++ "-unit") ∧
        (isUnitClass name = true ↔ Token.InUnit raw index)) ∧
    ∀ vocabulary name tokens tree, Draft.splitDeclaration (Token.meaningful raw) = (name, tokens) →
      Node.ofLine vocabulary tokens = .ok tree →
      ∃ declaration parts, Token.meaningful raw = declaration ++ tokens ∧
        Reading.start.unitParts vocabulary tokens = .ok parts ∧
        (unitMarks false raw).filter (fun mark => mark.1.kind.isMeaningful) =
          declaration.map (·, false) ++ tokens.zip parts := by
  refine ⟨texts_classifyFrom false raw, fun index token found => ?_, ?_⟩
  · refine ⟨_, getElem?_classifyFrom found, ?_, ?_⟩
    · unfold markedClass
      split
      · exact .inr rfl
      · exact .inl rfl
    · rw [isUnitClass_markedClass, Token.inUnit_iff found]
  · intro vocabulary name tokens tree split accepted
    obtain ⟨declaration, whole, other⟩ := Draft.exists_declaration (Token.meaningful raw)
    rw [split] at whole
    obtain ⟨last, read⟩ := Node.exists_foldlM_of_ofLine accepted
    obtain ⟨parts, known, marks⟩ := Reading.exists_unitParts read
    refine ⟨declaration, parts, whole, known, ?_⟩
    rw [filter_unitMarks, whole, unitMarks_append_of_ne other]
    exact congrArg _ marks

/-- On `x: 2 [m] # [` the unit is marked up to its closing sign, and the comment is not. -/
theorem Markup.classify_agrees_with_reading_of_comment : ∃ raw tokens tree,
    raw = Token.scan "x: 2 [m] # [".toList ∧
    Draft.splitDeclaration (Token.meaningful raw) = (some "x", tokens) ∧
    Node.ofLine ⟨["x"], Catalog.builtin⟩ tokens = .ok tree ∧
    Token.InUnit raw 7 ∧ ¬ Token.InUnit raw 9 ∧
    ((unitMarks false raw).filter fun mark => mark.1.kind.isMeaningful).map Prod.snd =
      [false, false, false, true, true, true] := by
  have cut : Token.scan "x: 2 [m] # [".toList =
      [⟨.literal, "x"⟩, ⟨.definition, ":"⟩, ⟨.whitespace, " "⟩, ⟨.number, "2"⟩, ⟨.whitespace, " "⟩,
        ⟨.bracket, "["⟩, ⟨.literal, "m"⟩, ⟨.bracket, "]"⟩, ⟨.whitespace, " "⟩,
        ⟨.comment, "# ["⟩] := by
    cbv
  obtain ⟨_, places, agreement⟩ := classify_agrees_with_reading (Token.scan "x: 2 [m] # [".toList)
  rw [cut] at places agreement
  refine ⟨_, [⟨.number, "2"⟩, ⟨.bracket, "["⟩, ⟨.literal, "m"⟩, ⟨.bracket, "]"⟩], _, cut.symm, rfl,
    rfl, ?_, ?_, ?_⟩
  · obtain ⟨name, found, _, marked⟩ := places 7 _ rfl
    cases found
    exact marked.mp rfl
  · obtain ⟨name, found, _, marked⟩ := places 9 _ rfl
    cases found
    exact fun inUnit => absurd (marked.mpr inUnit) (by decide)
  · obtain ⟨declaration, parts, whole, known, marks⟩ :=
      agreement ⟨["x"], Catalog.builtin⟩ (some "x") _ _ rfl rfl
    obtain rfl : declaration = [⟨.literal, "x"⟩, ⟨.definition, ":"⟩] :=
      (List.append_cancel_right whole).symm
    cases known
    rw [marks]
    rfl

end UnitSheet
