/-
This file says which tokens the words of a written unit are cut into.

A token ends where a character stands that does not go on with it. The words of a unit begin and end
so that spaces and the end of a bracket cut them off, and each is then cut into the same tokens
wherever it stands (`Token.Spells`). The words of a unit are its powers in canonical order and the
division bar between them, so that a line on which the unit stands in brackets has the tokens of
these, one after the other (`meaningful_scan_line`).
-/

import UnitSheet.Proofs.Spelling
import UnitSheet.Proofs.Tokens
import UnitSheet.Units.Written

namespace UnitSheet

namespace Token

/-- A token is cut off where the first character stands that does not go on with it. -/
theorem scan_run {first : Char} {run rest : List Char}
    (goesOn : ∀ character ∈ run, (Kind.ofFirst first).continues character = true)
    (stops : ∀ character ∈ rest.head?, (Kind.ofFirst first).continues character = false) :
    scan (first :: (run ++ rest)) =
      ⟨Kind.ofFirst first, String.ofList (first :: run)⟩ :: scan rest := by
  have taken : rest.takeWhile (Kind.ofFirst first).continues = [] := by
    cases rest with
    | nil => rfl
    | cons next others => rw [List.takeWhile_cons, stops next rfl, if_neg Bool.false_ne_true]
  have dropped : rest.dropWhile (Kind.ofFirst first).continues = rest := by
    cases rest with
    | nil => rfl
    | cons next others => rw [List.dropWhile_cons, stops next rfl, if_neg Bool.false_ne_true]
  rw [scan, leading, afterLeading, List.takeWhile_append_of_pos goesOn,
    List.dropWhile_append_of_pos goesOn, taken, dropped, List.append_nil]

/-- A line that has no unknown token is read as it is cut. -/
theorem readFrom_eq_scan (column : Nat) (line : List Char)
    (known : ∀ token ∈ scan line, token.kind ≠ .unknown) :
    readFrom column line = .ok (scan line) := by
  match line with
  | [] => rw [readFrom, scan]
  | first :: rest =>
    rw [scan] at known ⊢
    have kind : Kind.ofFirst first ≠ .unknown := known _ List.mem_cons_self
    rw [readFrom, if_neg kind]
    dsimp only
    rw [readFrom_eq_scan _ (afterLeading first rest) fun token member =>
      known token (List.mem_cons_of_mem _ member)]
    rfl
termination_by line.length
decreasing_by exact length_afterLeading_lt first rest

/-- A text that is cut as one name: a letter or an underscore, and then letters, digits and
underscores. -/
def isName (text : String) : Bool :=
  match text.toList with
  | [] => false
  | first :: rest => beginsName first && rest.all continuesName

/-- The rest of a line ends the word before it. -/
def EndsWord (rest : List Char) : Prop :=
  ∃ more, rest = ' ' :: more ∨ rest = ']' :: more

/-- A word is cut into some tokens wherever it stands, spacing apart. -/
structure Spells (text : String) (tokens : List Token) : Prop where
  begins : ∃ first rest, text.toList = first :: rest ∧ isSpacing first = false
  single : '\n' ∉ text.toList
  cut : ∀ rest, EndsWord rest →
    meaningful (scan (text.toList ++ rest)) = tokens ++ meaningful (scan rest)

theorem EndsWord.stops {rest : List Char} (ends : EndsWord rest) {continues : Char → Bool}
    (space : continues ' ' = false) (bracket : continues ']' = false) :
    ∀ character ∈ rest.head?, continues character = false := by
  obtain ⟨more, rfl | rfl⟩ := ends
  · rintro _ ⟨⟩
    exact space
  · rintro _ ⟨⟩
    exact bracket

theorem meaningful_cons {token : Token} (meaning : token.kind.isMeaningful = true)
    (tokens : List Token) : meaningful (token :: tokens) = token :: meaningful tokens := by
  rw [meaningful, List.filter_cons, if_pos meaning]
  rfl

theorem meaningful_cons_of_not {token : Token} (idle : token.kind.isMeaningful = false)
    (tokens : List Token) : meaningful (token :: tokens) = meaningful tokens := by
  rw [meaningful, List.filter_cons, if_neg (by rw [idle]; exact Bool.false_ne_true)]
  rfl

theorem beginsName_asciiDigit :
    ∀ value : Fin 10, beginsName (Text.asciiDigit value) = false := by
  decide

theorem ne_of_beginsName {first character : Char} (begins : beginsName first = true)
    (other : beginsName character = false) : (first == character) = false := by
  refine beq_eq_false_iff_ne.mpr fun same => ?_
  rw [same, other] at begins
  cases begins

theorem isSpacing_of_beginsName {first : Char} (begins : beginsName first = true) :
    isSpacing first = false := by
  rw [isSpacing, ne_of_beginsName begins rfl, ne_of_beginsName begins rfl]
  rfl

theorem ofFirst_of_beginsName {first : Char} (begins : beginsName first = true) :
    Kind.ofFirst first = .literal := by
  have differs := @ne_of_beginsName first
  have notDigit : first.isDigit = false := by
    refine Bool.eq_false_iff.mpr fun digit => ?_
    obtain ⟨value, rfl⟩ := Decimal.exists_asciiDigit digit
    rw [beginsName_asciiDigit] at begins
    cases begins
  simp only [Kind.ofFirst, isSpacing_of_beginsName begins, isOperator, notDigit, begins,
    differs begins (show beginsName '#' = false from rfl),
    differs begins (show beginsName '(' = false from rfl),
    differs begins (show beginsName ')' = false from rfl),
    differs begins (show beginsName '[' = false from rfl),
    differs begins (show beginsName ']' = false from rfl),
    differs begins (show beginsName ':' = false from rfl),
    differs begins (show beginsName '+' = false from rfl),
    differs begins (show beginsName '-' = false from rfl),
    differs begins (show beginsName '*' = false from rfl),
    differs begins (show beginsName '/' = false from rfl),
    differs begins (show beginsName '^' = false from rfl),
    Bool.or_self, if_true, if_false, Bool.false_eq_true]

theorem exists_toList_of_isName {name : String} (legible : isName name = true) :
    ∃ first rest, name.toList = first :: rest ∧ beginsName first = true ∧
      ∀ character ∈ rest, continuesName character = true := by
  unfold isName at legible
  split at legible
  · cases legible
  · rename_i first rest spelled
    rw [Bool.and_eq_true, List.all_eq_true] at legible
    exact ⟨first, rest, spelled, legible⟩

/-- A name is cut as one token, if it ends before what follows. -/
theorem scan_name {name : String} (legible : isName name = true) {rest : List Char}
    (stops : ∀ character ∈ rest.head?, continuesName character = false) :
    scan (name.toList ++ rest) = ⟨.literal, name⟩ :: scan rest := by
  obtain ⟨first, others, spelled, begins, goesOn⟩ := exists_toList_of_isName legible
  have kind := ofFirst_of_beginsName begins
  have cut := @scan_run first others rest (by rw [kind]; exact goesOn) (by rw [kind]; exact stops)
  rw [spelled, List.cons_append, cut, kind, ← spelled, String.ofList_toList]

theorem begins_of_isName {name : String} (legible : isName name = true) :
    ∃ first rest, name.toList = first :: rest ∧ isSpacing first = false := by
  obtain ⟨first, rest, spelled, begins, _⟩ := exists_toList_of_isName legible
  exact ⟨first, rest, spelled, isSpacing_of_beginsName begins⟩

/-- A plain spelling without a sign is cut as one token. -/
theorem scan_plainText (numeral : Decimal.Numeral) {rest : List Char}
    (stops : ∀ character ∈ rest.head?, isNumeric character = false) :
    scan (numeral.plainText ++ rest) = ⟨.number, String.ofList numeral.plainText⟩ :: scan rest := by
  obtain ⟨value, others, spelled⟩ := numeral.exists_plainText_eq_cons
  have kind : Kind.ofFirst (Text.asciiDigit value) = .number := by
    clear spelled
    revert value
    decide
  have goesOn : ∀ character ∈ others, isNumeric character = true := by
    intro character member
    have among : character ∈ numeral.plainText := by
      rw [spelled]
      exact List.mem_cons_of_mem _ member
    rcases Decimal.Numeral.digit_or_point_of_mem_plainText among with digit | rfl
    · rw [isNumeric, digit]
      rfl
    · rfl
  have cut := @scan_run (Text.asciiDigit value) others rest (by rw [kind]; exact goesOn)
    (by rw [kind]; exact stops)
  rw [spelled, List.cons_append, cut, kind]

end Token

open Token (Spells EndsWord isName scan meaningful scan_run scan_name scan_plainText)

/-! ### Words -/

namespace UnitPower

/-- The tokens of a power as it is written. -/
def tokens (power : UnitPower Float) : List Token :=
  ⟨.literal, power.unit.symbol⟩ ::
    if power.exponent.abs == 1 then []
    else [⟨.operator, "^"⟩, ⟨.number, Decimal.formatPlain power.exponent.abs⟩]

end UnitPower

theorem newline_notMem_of_isName {name : String} (legible : isName name = true) :
    '\n' ∉ name.toList := by
  obtain ⟨first, rest, spelled, begins, goesOn⟩ := Token.exists_toList_of_isName legible
  rw [spelled, List.mem_cons, not_or]
  refine ⟨?_, fun member => absurd (goesOn _ member) (by decide)⟩
  rintro rfl
  exact absurd begins (by decide)

theorem newline_notMem_plainText (numeral : Decimal.Numeral) : '\n' ∉ numeral.plainText := by
  intro member
  rcases Decimal.Numeral.digit_or_point_of_mem_plainText member with digit | point
  · cases digit
  · cases point

theorem scan_sign {symbol : Char}
    (alone : ∀ next, (Token.Kind.ofFirst symbol).continues next = false) (rest : List Char) :
    scan (symbol :: rest) = ⟨Token.Kind.ofFirst symbol, String.ofList [symbol]⟩ :: scan rest :=
  @scan_run symbol [] rest (fun _ member => absurd member List.not_mem_nil) fun next _ => alone next

theorem spells_power {power : UnitPower Float} (name : isName power.unit.symbol = true)
    (finite : power.exponent.isFinite = true) (nonzero : (power.exponent == 0) = false) :
    Spells power.text power.tokens := by
  obtain ⟨sign, exact, holds⟩ := Floating.exists_holds finite nonzero
  rw [UnitPower.text, UnitPower.tokens]
  by_cases one : (power.exponent.abs == 1) = true
  · rw [if_pos one, if_pos one]
    refine ⟨Token.begins_of_isName name, newline_notMem_of_isName name, fun rest ends => ?_⟩
    rw [scan_name name (ends.stops rfl rfl), Token.meaningful_cons rfl]
    rfl
  · obtain ⟨numeral, spelled⟩ := Decimal.exists_formatPlain holds.abs
    rw [if_neg one, if_neg one, spelled]
    have text : (power.unit.symbol ++ "^" ++ String.ofList numeral.plainText).toList =
        power.unit.symbol.toList ++ '^' :: numeral.plainText := by
      simp
    obtain ⟨first, others, begins, visible⟩ := Token.begins_of_isName name
    refine ⟨⟨first, _, by rw [text, begins]; rfl, visible⟩, ?_, fun rest ends => ?_⟩
    · rw [text, List.mem_append, List.mem_cons, not_or, not_or]
      exact ⟨newline_notMem_of_isName name, by decide, newline_notMem_plainText numeral⟩
    · rw [text, List.append_assoc, List.cons_append,
        scan_name name (by rintro _ ⟨⟩; rfl), scan_sign (fun _ => rfl),
        scan_plainText numeral (ends.stops rfl rfl), Token.meaningful_cons rfl,
        Token.meaningful_cons rfl, Token.meaningful_cons rfl]
      rfl

/-- A word of a unit: a power, the division bar, or the one before a bar above which nothing
stands. -/
inductive UnitWord where
  | one
  | bar
  | power (power : UnitPower Float)

namespace UnitWord

def text : UnitWord → String
  | one => "1"
  | bar => "/"
  | power factor => factor.text

def tokens : UnitWord → List Token
  | one => [⟨.number, "1"⟩]
  | bar => [⟨.operator, "/"⟩]
  | power factor => factor.tokens

end UnitWord

theorem spells_one : Spells UnitWord.one.text UnitWord.one.tokens where
  begins := ⟨'1', [], rfl, rfl⟩
  single := by decide
  cut := fun rest ends => by
    have cut := @scan_run '1' [] rest (fun _ member => absurd member List.not_mem_nil)
      (ends.stops rfl rfl)
    show meaningful (scan ('1' :: ([] ++ rest))) = _
    rw [cut, Token.meaningful_cons rfl]
    rfl

theorem spells_bar : Spells UnitWord.bar.text UnitWord.bar.tokens where
  begins := ⟨'/', [], rfl, rfl⟩
  single := by decide
  cut := fun rest _ => by
    show meaningful (scan ('/' :: rest)) = _
    rw [scan_sign (fun _ => rfl), Token.meaningful_cons rfl]
    rfl

theorem exists_toList_intercalate (first : String) (others : List String) :
    ∃ more, (String.intercalate " " (first :: others)).toList = first.toList ++ more := by
  cases others with
  | nil => exact ⟨[], by rw [String.intercalate_singleton, List.append_nil]⟩
  | cons next others =>
    rw [String.intercalate_cons_cons, String.toList_append, String.toList_append,
      List.append_assoc]
    exact ⟨_, rfl⟩

/-- A space before a word has no meaning. -/
theorem meaningful_scan_space {rest : List Char}
    (visible : ∀ character ∈ rest.head?, Token.isSpacing character = false) :
    meaningful (scan (' ' :: rest)) = meaningful (scan rest) := by
  have cut := @scan_run ' ' [] rest (fun _ member => absurd member List.not_mem_nil) visible
  rw [← List.nil_append rest, cut, Token.meaningful_cons_of_not rfl, List.nil_append]

/-- Words with spaces between them are cut one by one. -/
theorem spells_words {words : List UnitWord}
    (all : ∀ word ∈ words, Spells word.text word.tokens) (rest : List Char) :
    meaningful (scan ((String.intercalate " " (words.map UnitWord.text)).toList ++ ']' :: rest)) =
      words.flatMap UnitWord.tokens ++ meaningful (scan (']' :: rest)) := by
  induction words with
  | nil => rfl
  | cons word others inductionHypothesis =>
    obtain ⟨spells, remaining⟩ := List.forall_mem_cons.mp all
    cases others with
    | nil =>
      rw [List.map_singleton, String.intercalate_singleton, spells.cut _ ⟨rest, .inr rfl⟩,
        List.flatMap_singleton]
    | cons next others =>
      obtain ⟨first, later, begins, visible⟩ := (remaining next List.mem_cons_self).begins
      obtain ⟨more, splits⟩ := exists_toList_intercalate next.text (others.map UnitWord.text)
      have space : (" " : String).toList = [' '] := rfl
      have joined : (word :: next :: others).flatMap UnitWord.tokens =
          word.tokens ++ (next :: others).flatMap UnitWord.tokens := List.flatMap_cons
      rw [List.map_cons, List.map_cons, String.intercalate_cons_cons, ← List.map_cons,
        String.toList_append, String.toList_append, List.append_assoc, List.append_assoc, space,
        List.singleton_append, spells.cut _ ⟨_, .inl rfl⟩, meaningful_scan_space,
        inductionHypothesis remaining, joined, List.append_assoc]
      rw [List.map_cons, splits, begins]
      rintro _ ⟨⟩
      exact visible

theorem newline_notMem_words {words : List UnitWord}
    (all : ∀ word ∈ words, Spells word.text word.tokens) :
    '\n' ∉ (String.intercalate " " (words.map UnitWord.text)).toList := by
  induction words with
  | nil => exact List.not_mem_nil
  | cons word others inductionHypothesis =>
    obtain ⟨spells, remaining⟩ := List.forall_mem_cons.mp all
    cases others with
    | nil =>
      rw [List.map_singleton, String.intercalate_singleton]
      exact spells.single
    | cons next others =>
      rw [List.map_cons, List.map_cons, String.intercalate_cons_cons, ← List.map_cons,
        String.toList_append, String.toList_append, List.mem_append, List.mem_append, not_or,
        not_or]
      exact ⟨⟨spells.single, by decide⟩, inductionHypothesis remaining⟩

/-! ### Lines with brackets -/

theorem kind_of_mem_tokens {word : UnitWord} {token : Token} (member : token ∈ word.tokens) :
    token.kind ≠ .unknown := by
  cases word with
  | one | bar =>
    rw [List.mem_singleton.mp member]
    nofun
  | power power =>
    rcases List.mem_cons.mp member with rfl | member
    · nofun
    · split at member
      · cases member
      · simp only [List.mem_cons, List.not_mem_nil, or_false] at member
        rcases member with rfl | rfl
        · nofun
        · nofun

/-- The tokens of a line on which words stand in brackets after a number. -/
theorem meaningful_scan_line {words : List UnitWord}
    (all : ∀ word ∈ words, Spells word.text word.tokens) :
    meaningful (scan ('1' :: ' ' :: '[' ::
      ((String.intercalate " " (words.map UnitWord.text)).toList ++ [']']))) =
        ⟨.number, "1"⟩ :: ⟨.bracket, "["⟩ ::
          (words.flatMap UnitWord.tokens ++ [⟨.bracket, "]"⟩]) := by
  have one := spells_one.cut (' ' :: '[' ::
      ((String.intercalate " " (words.map UnitWord.text)).toList ++ [']'])) ⟨_, .inl rfl⟩
  have ends : meaningful (scan [']']) = [⟨.bracket, "]"⟩] := by
    rw [scan_sign (fun _ => rfl), scan]
    rfl
  refine one.trans ?_
  rw [meaningful_scan_space (by rintro _ ⟨⟩; rfl), scan_sign (fun _ => rfl),
    Token.meaningful_cons rfl, spells_words all, ends]
  rfl

/-- Such a line is cut without an error. -/
theorem exists_tokens_of_spells {words : List UnitWord}
    (all : ∀ word ∈ words, Spells word.text word.tokens) :
    ∃ tokens, Token.ofLine false
        ("1 [" ++ String.intercalate " " (words.map UnitWord.text) ++ "]") = .ok tokens ∧
      meaningful tokens = ⟨.number, "1"⟩ :: ⟨.bracket, "["⟩ ::
        (words.flatMap UnitWord.tokens ++ [⟨.bracket, "]"⟩]) := by
  have spelled : ("1 [" ++ String.intercalate " " (words.map UnitWord.text) ++ "]").toList =
      '1' :: ' ' :: '[' ::
        ((String.intercalate " " (words.map UnitWord.text)).toList ++ [']']) := by
    rw [String.toList_append, String.toList_append]
    rfl
  have cut := meaningful_scan_line all
  rw [← spelled] at cut
  generalize "1 [" ++ String.intercalate " " (words.map UnitWord.text) ++ "]" = line at *
  have known : ∀ token ∈ scan line.toList, token.kind ≠ .unknown := by
    intro token member unknown
    have inside : token ∈ meaningful (scan line.toList) :=
      List.mem_filter.mpr ⟨member, by rw [unknown]; rfl⟩
    rw [cut, List.mem_cons, List.mem_cons, List.mem_append, List.mem_singleton] at inside
    rcases inside with rfl | rfl | inside | rfl
    · cases unknown
    · cases unknown
    · obtain ⟨word, _, inWord⟩ := List.mem_flatMap.mp inside
      exact kind_of_mem_tokens inWord unknown
    · cases unknown
  have single : line.toList.contains '\n' = false := by
    refine Bool.eq_false_iff.mpr fun found => ?_
    have inside := List.contains_iff_mem.mp found
    rw [spelled] at inside
    simp only [List.mem_cons, List.mem_append, List.not_mem_nil, newline_notMem_words all,
      Char.reduceEq, or_self] at inside
  refine ⟨scan line.toList, ?_, cut⟩
  rw [Token.ofLine, single, if_neg Bool.false_ne_true, if_neg Bool.false_ne_true, Token.read,
    Token.readFrom_eq_scan 1 _ known]
  rfl

end UnitSheet
