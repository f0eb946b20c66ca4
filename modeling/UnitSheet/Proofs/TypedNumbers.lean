/-
This file says which typed numbers can be read, and as what.

Points are taken away before anything else, so that a typed number matters only up to its points.
What is left is read by the general reading of decimal numbers, which knows signs, words, exponents
and underscores; but a number is cut from a line as digits, points, commas and percent signs only
(`Token.Rule.number`), and of these the general reading takes digits with one mark among or behind
them and nothing else (`readNumeral?_eq_some_iff`).
-/

import UnitSheet.Proofs.Scanning
import UnitSheet.Sheet.Evaluation

namespace UnitSheet

namespace Decimal

/-! ### Digits with a mark -/

/-- Digits, perhaps with a mark among or behind them. -/
structure Positional where
  whole : List Char
  /-- The digits behind the mark, if there is one. -/
  fraction : Option (List Char)
  some : whole ≠ []
  wholeDigits : ∀ digit ∈ whole, digit.isDigit = true
  fractionDigits : ∀ digits ∈ fraction, ∀ digit ∈ digits, digit.isDigit = true

namespace Positional

variable (number : Positional) {mark : Char}

/-- The number with a character for its mark. -/
def written (mark : Char) : List Char :=
  number.whole ++ number.fraction.elim [] (mark :: ·)

/-- What the digits stand for. -/
def numeral : Numeral where
  digits := digitsValue 0 (number.whole ++ number.fraction.getD [])
  exponent := -(number.fraction.getD []).length

theorem digit_or_mark {character : Char} (member : character ∈ number.written mark) :
    character.isDigit = true ∨ character = mark := by
  rcases List.mem_append.mp member with whole | behind
  · exact .inl (number.wholeDigits _ whole)
  · cases known : number.fraction with
    | none =>
      rw [known] at behind
      cases behind
    | some digits =>
      rw [known] at behind
      rcases List.mem_cons.mp behind with rfl | among
      · exact .inr rfl
      · exact .inl (number.fractionDigits digits known _ among)

end Positional

/-! ### Reading digits with a point -/

theorem takeDigits_eq_span {text : List Char} (plain : '_' ∉ text) :
    takeDigits text = (text.takeWhile Char.isDigit, text.dropWhile Char.isDigit) := by
  induction text with
  | nil => rfl
  | cons first rest inductionHypothesis =>
    rw [List.mem_cons, not_or] at plain
    cases digit : first.isDigit with
    | false =>
      rw [takeDigits_of_other rest digit, List.takeWhile_cons, List.dropWhile_cons, digit]
      rfl
    | true =>
      have noUnderscore : rest.head? ≠ some '_' :=
        fun same => plain.2 (List.mem_of_mem_head? same)
      rw [takeDigits_cons digit noUnderscore, inductionHypothesis plain.2, List.takeWhile_cons,
        List.dropWhile_cons, digit]
      rfl

/-- A character of typed numbers is a digit or a mark. -/
theorem cases_of_isNumeric {character : Char} (numeric : Token.isNumeric character = true) :
    character.isDigit = true ∨ character = '.' ∨ character = ',' ∨ character = '%' := by
  simpa [Token.isNumeric, or_assoc] using numeric

theorem takeFraction_of_ne {first : Char} (other : first ≠ '.') (rest : List Char) :
    takeFraction (first :: rest) = ([], first :: rest) := by
  unfold takeFraction
  split
  · rename_i same
    exact absurd (List.cons.inj same).1 other
  · rfl

theorem toLower_asciiDigit_ne : ∀ value : Fin 10, (Text.asciiDigit value).toLower ≠ 'e' := by
  decide

/-- No exponent begins with a character of typed numbers. -/
theorem readExponent?_of_isNumeric {first : Char} (numeric : Token.isNumeric first = true)
    (rest : List Char) : readExponent? (first :: rest) = none := by
  have other : first.toLower ≠ 'e' := by
    rcases cases_of_isNumeric numeric with digit | rfl | rfl | rfl
    · obtain ⟨value, rfl⟩ := exists_asciiDigit digit
      exact toLower_asciiDigit_ne value
    all_goals decide
  rw [readExponent?, if_neg other]

/-- Nothing is left behind the digits of a numeral that is written without an exponent. -/
theorem eq_nil_of_readNumeral? {text : List Char} {numeral : Numeral}
    (numeric : ∀ character ∈ (takeFraction (takeDigits text).2).2,
      Token.isNumeric character = true)
    (read : readNumeral? text = some numeral) : (takeFraction (takeDigits text).2).2 = [] := by
  cases behind : (takeFraction (takeDigits text).2).2 with
  | nil => rfl
  | cons first rest =>
    have noExponent : readExponent? (takeFraction (takeDigits text).2).2 = none := by
      rw [behind] at numeric ⊢
      exact readExponent?_of_isNumeric (numeric first List.mem_cons_self) rest
    unfold readNumeral? at read
    dsimp only at read
    rw [noExponent] at read
    split at read <;> cases read

theorem readNumeral?_written (number : Positional) :
    readNumeral? (number.written '.') = some number.numeral := by
  obtain ⟨whole, fraction, nonempty, wholeDigits, fractionDigits⟩ := number
  have known : whole.isEmpty = false := List.isEmpty_eq_false_iff.mpr nonempty
  cases fraction with
  | none =>
    have taken := @takeDigits_append _ [] wholeDigits (.inl rfl)
    rw [Positional.written, readNumeral?]
    dsimp only [Option.elim_none]
    rw [taken]
    simp [takeFraction, known, readExponent?, Positional.numeral]
  | some digits =>
    have taken := @takeDigits_append _ ('.' :: digits) wholeDigits (.inr ⟨digits, rfl⟩)
    have behind := @takeDigits_append _ [] (fractionDigits digits rfl) (.inl rfl)
    rw [List.append_nil] at behind
    rw [Positional.written, readNumeral?]
    dsimp only [Option.elim_some]
    rw [taken]
    simp [takeFraction, behind, known, readExponent?, Positional.numeral]

/-- What is read of digits and marks that begin with a digit is digits with at most one point. -/
theorem exists_written_of_readNumeral? {first : Char} {rest : List Char}
    (digit : first.isDigit = true)
    (numeric : ∀ character ∈ first :: rest, Token.isNumeric character = true) {numeral : Numeral}
    (read : readNumeral? (first :: rest) = some numeral) :
    ∃ number : Positional, first :: rest = number.written '.' := by
  have taken : takeDigits (first :: rest) = _ :=
    takeDigits_eq_span fun underscore => absurd (numeric _ underscore) (by decide)
  have whole : (first :: rest).takeWhile Char.isDigit ≠ [] := by
    rw [List.takeWhile_cons, if_pos digit]
    exact List.cons_ne_nil _ _
  have wholeDigits : ∀ character ∈ (first :: rest).takeWhile Char.isDigit,
      character.isDigit = true := fun _ => List.mem_takeWhile_imp
  have split : (first :: rest).takeWhile Char.isDigit ++ (first :: rest).dropWhile Char.isDigit =
      first :: rest := List.takeWhile_append_dropWhile
  have within : ∀ character ∈ (first :: rest).dropWhile Char.isDigit,
      Token.isNumeric character = true :=
    fun character member => numeric character (List.dropWhile_subset _ member)
  have nothing := @eq_nil_of_readNumeral? (first :: rest) numeral
  rw [taken] at nothing
  dsimp only at nothing
  generalize (first :: rest).dropWhile Char.isDigit = after at split within nothing
  cases after with
  | nil => exact ⟨⟨_, none, whole, wholeDigits, nofun⟩, split.symm⟩
  | cons character more =>
    by_cases point : character = '.'
    · subst point
      have behind : takeDigits more = _ := takeDigits_eq_span fun underscore =>
        absurd (within _ (List.mem_cons_of_mem _ underscore)) (by decide)
      rw [takeFraction, behind] at nothing
      have none := nothing (fun character member => within character
        (List.mem_cons_of_mem _ (List.dropWhile_subset _ member))) read
      refine ⟨⟨_, some more, whole, wholeDigits, ?_⟩, split.symm⟩
      rintro _ ⟨⟩
      exact List.dropWhile_eq_nil_iff.mp none
    · rw [takeFraction_of_ne point more] at nothing
      cases nothing within read

theorem readNumeral?_eq_some_iff {first : Char} {rest : List Char} (digit : first.isDigit = true)
    (numeric : ∀ character ∈ first :: rest, Token.isNumeric character = true) {numeral : Numeral} :
    readNumeral? (first :: rest) = some numeral ↔
      ∃ number : Positional, first :: rest = number.written '.' ∧ number.numeral = numeral := by
  constructor
  · intro read
    obtain ⟨number, same⟩ := exists_written_of_readNumeral? digit numeric read
    rw [same, readNumeral?_written] at read
    exact ⟨number, same, Option.some.inj read⟩
  · rintro ⟨number, same, rfl⟩
    rw [same, readNumeral?_written]

/-- Without blanks, a sign and a word, the general reading reads a numeral. -/
theorem read?_of_digit {first : Char} {rest : List Char} (digit : first.isDigit = true)
    (numeric : ∀ character ∈ first :: rest, Token.isNumeric character = true) :
    read? (String.ofList (first :: rest)) = (readNumeral? (first :: rest)).map Numeral.value := by
  have solid : ∀ character ∈ first :: rest, Text.isBlank character = false := by
    intro character member
    rcases cases_of_isNumeric (numeric character member) with digit | rfl | rfl | rfl
    · exact isBlank_of_isPlain (.inl digit)
    all_goals decide
  have latin : ∀ character ∈ first :: rest, latinDigit character = character := by
    intro character member
    rcases cases_of_isNumeric (numeric character member) with digit | rfl | rfl | rfl
    · exact latinDigit_of_isPlain (.inl digit)
    all_goals decide
  have unsigned : takeSign (first :: rest) = (false, first :: rest) := by
    refine takeSign_of_other rest ?_ ?_
    · rintro rfl
      cases digit
    · rintro rfl
      cases digit
  rw [read?, String.toList_ofList, trimBlanks_eq_self solid, List.map_congr_left latin,
    List.map_id', unsigned]
  dsimp only
  rw [readMagnitude?_of_digit digit, Option.map_map]
  rfl

theorem read?_written (number : Positional) :
    read? (String.ofList (number.written '.')) = some number.numeral.value := by
  obtain ⟨first, others, whole⟩ := List.exists_cons_of_ne_nil number.some
  have digit : first.isDigit = true := number.wholeDigits first (whole ▸ List.mem_cons_self)
  have numeric : ∀ character ∈ number.written '.', Token.isNumeric character = true := by
    intro character member
    rcases number.digit_or_mark member with digit | rfl
    · rw [Token.isNumeric, digit]
      rfl
    · rfl
  have begins : number.written '.' = first :: (others ++ number.fraction.elim [] ('.' :: ·)) := by
    rw [Positional.written, whole, List.cons_append]
  rw [begins] at numeric ⊢
  rw [read?_of_digit digit numeric, ← begins, readNumeral?_written, Option.map_some]

/-! ### Commas and percent signs -/

/-- One mark in place of another. -/
def exchange (old new character : Char) : Char :=
  if character = old then new else character

theorem exchange_of_ne {old character : Char} (other : character ≠ old) (new : Char) :
    exchange old new character = character :=
  if_neg other

/-- A mark is put back where the other one did not stand before. -/
theorem exchange_exchange {new character : Char} (other : character ≠ new) (old : Char) :
    exchange new old (exchange old new character) = character := by
  by_cases same : character = old
  · have changed : exchange old new old = new := if_pos rfl
    rw [same, changed]
    exact if_pos rfl
  · rw [exchange_of_ne same, exchange_of_ne other]

/-- A typed number without its points. -/
def withoutPoints (text : String) : List Char :=
  text.toList.filter (· != '.')

theorem normalizeMarks_eq (text : String) :
    normalizeMarks text.toList = (withoutPoints text).map (exchange ',' '.') :=
  rfl

theorem isNumeric_exchange {character : Char} (numeric : Token.isNumeric character = true) :
    Token.isNumeric (exchange ',' '.' character) = true := by
  unfold exchange
  split
  · rfl
  · exact numeric

theorem exchange_eq_percent_iff {character : Char} :
    exchange ',' '.' character = '%' ↔ character = '%' := by
  unfold exchange
  split
  · rename_i comma
    rw [comma]
    decide
  · rfl

namespace Positional

variable (number : Positional)

theorem map_written {old : Char} (noDigit : old.isDigit = false) (new : Char) :
    (number.written old).map (exchange old new) = number.written new := by
  obtain ⟨whole, fraction, _, wholeDigits, fractionDigits⟩ := number
  have unchanged : ∀ digits : List Char, (∀ digit ∈ digits, digit.isDigit = true) →
      digits.map (exchange old new) = digits := by
    intro digits all
    refine (List.map_congr_left fun digit member => ?_).trans (List.map_id' digits)
    refine exchange_of_ne ?_ new
    rintro rfl
    cases noDigit.symm.trans (all _ member)
  rw [written, written, List.map_append, unchanged whole wholeDigits]
  cases fraction with
  | none => rfl
  | some digits =>
    rw [Option.elim_some, Option.elim_some, List.map_cons, unchanged digits (fractionDigits _ rfl),
      exchange, if_pos rfl]

/-- A text without points has a comma where it has a point after commas have become points. -/
theorem map_exchange_eq_iff {text : List Char} (noPoint : '.' ∉ text) :
    text.map (exchange ',' '.') = number.written '.' ↔ text = number.written ',' := by
  constructor
  · intro same
    have restored : (text.map (exchange ',' '.')).map (exchange '.' ',') = text := by
      rw [List.map_map]
      refine (List.map_congr_left fun character member => ?_).trans (List.map_id' text)
      have other : character ≠ '.' := fun point => noPoint (point ▸ member)
      exact exchange_exchange other ','
    rw [← restored, same, map_written number rfl]
  · rintro rfl
    exact map_written number rfl '.'

/-- The number as it is typed, apart from points. -/
def typed (percent : Bool) : List Char :=
  number.written ',' ++ if percent then ['%'] else []

/-- The value of the number as it is typed. -/
def typedValue (percent : Bool) : Float :=
  if percent then number.numeral.value / 100 else number.numeral.value

theorem percent_notMem_written : '%' ∉ number.written ',' := by
  intro member
  rcases number.digit_or_mark member with digit | comma
  · cases digit
  · cases comma

end Positional

theorem read?_map_exchange {first : Char} {rest : List Char} (digit : first.isDigit = true)
    (numeric : ∀ character ∈ first :: rest, Token.isNumeric character = true)
    (noPoint : '.' ∉ first :: rest) {value : Float} :
    read? (String.ofList ((first :: rest).map (exchange ',' '.'))) = some value ↔
      ∃ number : Positional, first :: rest = number.written ',' ∧ number.numeral.value = value := by
  have exchanged : ∀ character ∈ (first :: rest).map (exchange ',' '.'),
      Token.isNumeric character = true := by
    intro character member
    obtain ⟨original, among, rfl⟩ := List.mem_map.mp member
    exact isNumeric_exchange (numeric original among)
  simp only [← Positional.map_exchange_eq_iff _ noPoint]
  have noComma : first ≠ ',' := by
    rintro rfl
    cases digit
  rw [List.map_cons, exchange_of_ne noComma] at exchanged ⊢
  rw [read?_of_digit digit exchanged, Option.map_eq_some_iff]
  constructor
  · rintro ⟨numeral, read, rfl⟩
    obtain ⟨number, same, rfl⟩ := (readNumeral?_eq_some_iff digit exchanged).mp read
    exact ⟨number, same, rfl⟩
  · rintro ⟨number, same, rfl⟩
    exact ⟨_, (readNumeral?_eq_some_iff digit exchanged).mpr ⟨number, same, rfl⟩, rfl⟩

theorem notMem_withoutPoints (text : String) : '.' ∉ withoutPoints text := by
  intro member
  have kept := (List.mem_filter.mp member).2
  cases kept

/-- A percent sign at the end is cut off before the rest is read. -/
theorem readTyped?_of_percent {text : String} {before : List Char}
    (ends : withoutPoints text = before ++ ['%']) :
    readTyped? text = (read? (String.ofList (before.map (exchange ',' '.')))).map (· / 100) := by
  have marks : normalizeMarks text.toList = before.map (exchange ',' '.') ++ ['%'] := by
    rw [normalizeMarks_eq, ends, List.map_append]
    rfl
  rw [readTyped?, marks, if_pos List.getLast?_concat, List.dropLast_concat]

theorem readTyped?_of_no_percent {text : String}
    (last : (withoutPoints text).getLast? ≠ some '%') :
    readTyped? text = read? (String.ofList ((withoutPoints text).map (exchange ',' '.'))) := by
  have other : ((withoutPoints text).map (exchange ',' '.')).getLast? ≠ some '%' := by
    rw [List.getLast?_map]
    intro same
    obtain ⟨character, known, percent⟩ := Option.map_eq_some_iff.mp same
    rw [exchange_eq_percent_iff.mp percent] at known
    exact last known
  rw [readTyped?, normalizeMarks_eq, if_neg other]

/-- A typed number is read if, apart from points, it is digits with at most one comma and then at
most one percent sign, and a percent sign divides by a hundred. -/
theorem readTyped?_eq_some_iff {text : String} {first : Char} {rest : List Char}
    (spelled : withoutPoints text = first :: rest) (digit : first.isDigit = true)
    (numeric : ∀ character ∈ first :: rest, Token.isNumeric character = true) {value : Float} :
    readTyped? text = some value ↔ ∃ (number : Positional) (percent : Bool),
      withoutPoints text = number.typed percent ∧ number.typedValue percent = value := by
  have noPoint := notMem_withoutPoints text
  by_cases last : (withoutPoints text).getLast? = some '%'
  · obtain ⟨before, ends⟩ := List.getLast?_eq_some_iff.mp last
    rw [readTyped?_of_percent ends, Option.map_eq_some_iff]
    rw [spelled] at noPoint ends ⊢
    -- The first character is a digit, so something stands before the percent sign.
    cases before with
    | nil =>
      cases ends
      cases digit
    | cons other before =>
      obtain ⟨rfl, rfl⟩ := List.cons.inj ends
      have within : first :: before ⊆ first :: (before ++ ['%']) := List.subset_append_left _ _
      rw [exists_congr fun known => and_congr_left fun _ => read?_map_exchange digit
        (fun character member => numeric character (within member))
        (fun member => noPoint (within member))]
      constructor
      · rintro ⟨_, ⟨number, same, rfl⟩, rfl⟩
        exact ⟨number, true, congrArg (· ++ ['%']) same, rfl⟩
      · rintro ⟨number, percent, same, rfl⟩
        cases percent with
        | true => exact ⟨_, ⟨number, List.append_cancel_right same, rfl⟩, rfl⟩
        | false =>
          refine absurd ?_ number.percent_notMem_written
          rw [← same.trans (List.append_nil _)]
          exact List.mem_append_right (first :: before) List.mem_cons_self
  · rw [readTyped?_of_no_percent last]
    rw [spelled] at noPoint last ⊢
    rw [read?_map_exchange digit numeric noPoint]
    constructor
    · rintro ⟨number, same, rfl⟩
      exact ⟨number, false, same.trans (List.append_nil _).symm, rfl⟩
    · rintro ⟨number, percent, same, rfl⟩
      cases percent with
      | true =>
        refine absurd ?_ last
        rw [same]
        exact List.getLast?_concat
      | false => exact ⟨number, same.trans (List.append_nil _), rfl⟩

end Decimal

/-! ### Numbers cut from a line -/

open Decimal Floating

/-- The text of a number token begins with a digit, and only points are left out of it. -/
theorem Token.exists_withoutPoints {line : List Char} {text : String}
    (cut : ⟨.number, text⟩ ∈ scan line) : ∃ first rest, withoutPoints text = first :: rest ∧
      first.isDigit = true ∧ ∀ character ∈ first :: rest, isNumeric character = true := by
  cases (cuts_scan line).fits _ cut with
  | rule rule =>
    generalize spelled : text.toList = characters at rule
    cases rule with
    | @number first rest digit numeric =>
      have noPoint : first ≠ '.' := by
        rintro rfl
        cases digit
      refine ⟨first, rest.filter (· != '.'), ?_, digit, List.forall_mem_cons.mpr ⟨?_, ?_⟩⟩
      · rw [withoutPoints, spelled, List.filter_cons, if_pos (bne_iff_ne.mpr noPoint)]
      · rw [isNumeric, digit]
        rfl
      · exact fun character member => numeric character (List.mem_of_mem_filter member)

namespace Quantity

theorem ofTyped_eq_ok_iff {text : String} {quantity : Quantity Float} :
    ofTyped text = .ok quantity ↔
      ∃ value, readTyped? text = some value ∧ pure value = quantity := by
  unfold ofTyped
  cases readTyped? text with
  | none => exact ⟨nofun, nofun⟩
  | some value =>
    constructor
    · rintro ⟨⟩
      exact ⟨value, rfl, rfl⟩
    · rintro ⟨_, ⟨⟩, rfl⟩
      rfl

/-- A number cut from a line is read exactly if, without its points, it is digits, then at most one
comma with any digits after it, then at most one percent sign; otherwise it is called invalid. The
value does not depend on the points. It is the number nearest to what the digits say with the comma
as decimal mark, divided by a hundred if there is a percent sign. -/
theorem ofTyped_of_cut {line : List Char} {text : String}
    (cut : ⟨.number, text⟩ ∈ Token.scan line) :
    (∀ quantity, ofTyped text = .ok quantity ↔ ∃ (number : Positional) (percent : Bool),
      withoutPoints text = number.typed percent ∧ pure (number.typedValue percent) = quantity) ∧
    ((¬ ∃ (number : Positional) (percent : Bool), withoutPoints text = number.typed percent) →
      ofTyped text = .error (.failure (.invalidNumber text))) ∧
    (∀ other quantity, withoutPoints other = withoutPoints text →
      (ofTyped other = .ok quantity ↔ ofTyped text = .ok quantity)) ∧
    ∀ number : Positional,
      read? (String.ofList (number.written '.')) = some number.numeral.value ∧
      (number.numeral.digits = 0 → number.numeral.value = 0) ∧
      (number.numeral.digits ≠ 0 →
        Rounds .positive number.numeral.rational number.numeral.value) := by
  obtain ⟨first, rest, spelled, digit, numeric⟩ := Token.exists_withoutPoints cut
  have reads : ∀ value, readTyped? text = some value ↔ _ :=
    fun _ => readTyped?_eq_some_iff spelled digit numeric
  refine ⟨fun quantity => ?_, fun invalid => ?_, fun other quantity same => ?_, fun number => ?_⟩
  · simp only [ofTyped_eq_ok_iff, reads]
    constructor
    · rintro ⟨_, ⟨number, percent, same, rfl⟩, rfl⟩
      exact ⟨number, percent, same, rfl⟩
    · rintro ⟨number, percent, same, rfl⟩
      exact ⟨_, ⟨number, percent, same, rfl⟩, rfl⟩
  · have unread : readTyped? text = none := by
      refine Option.eq_none_iff_forall_ne_some.mpr fun value read => invalid ?_
      obtain ⟨number, percent, same, _⟩ := (reads value).mp read
      exact ⟨number, percent, same⟩
    rw [ofTyped, unread]
  · have same : readTyped? other = readTyped? text := by
      unfold readTyped?
      rw [normalizeMarks_eq, normalizeMarks_eq, same]
    rw [ofTyped_eq_ok_iff, ofTyped_eq_ok_iff, same]
  · refine ⟨read?_written number, fun zero => ?_, fun some => Numeral.rounds_value some⟩
    rw [Numeral.value, if_pos (.inl zero)]

/-- The points of `1.2.3,5%.` do not matter, and the percent sign divides by a hundred. -/
theorem ofTyped_of_cut_with_points :
    ⟨.number, "1.2.3,5%."⟩ ∈ Token.scan "x*1.2.3,5%.".toList ∧
    ofTyped "1.2.3,5%." = .ok (pure (Numeral.value ⟨1235, -1⟩ / 100)) ∧
    ofTyped "123,5%" = .ok (pure (Numeral.value ⟨1235, -1⟩ / 100)) := by
  have cut : Token.scan "x*1.2.3,5%.".toList =
      [⟨.literal, "x"⟩, ⟨.operator, "*"⟩, ⟨.number, "1.2.3,5%."⟩] := by
    cbv
  have member : ⟨.number, "1.2.3,5%."⟩ ∈ Token.scan "x*1.2.3,5%.".toList := by
    rw [cut]
    decide
  obtain ⟨accepted, _, points, _⟩ := ofTyped_of_cut member
  let number : Positional :=
    ⟨['1', '2', '3'], some ['5'], by decide, by simp [Char.isDigit], by simp [Char.isDigit]⟩
  have numeral : number.numeral = ⟨1235, -1⟩ := by decide
  have read : ofTyped "1.2.3,5%." = .ok (pure (Numeral.value ⟨1235, -1⟩ / 100)) := by
    refine (accepted _).mpr ⟨number, true, by decide, ?_⟩
    rw [Positional.typedValue, if_pos rfl, numeral]
  exact ⟨member, read, (points _ _ (by decide)).mpr read⟩

end Quantity

end UnitSheet
