/-
This file says that a finite number is read back from its plain spelling.

A plain spelling is a sign and digits with at most one point between them. It has the significant
digits of its numeral, and zeros in place of the exponent, so that reading it does not lead to the
numeral again; but it leads to one that says the same exactly (`Numeral.rational_positional`), and
the value of a numeral depends on nothing else.
-/

import UnitSheet.Decimal.Literal
import UnitSheet.Decimal.Notation
import UnitSheet.Proofs.Numerals

namespace UnitSheet.Decimal

/-! ### The characters of a plain spelling -/

/-- A basic Latin digit, a point or a minus. -/
def IsPlain (character : Char) : Prop :=
  character.isDigit = true ∨ character = '.' ∨ character = '-'

theorem exists_asciiDigit {character : Char} (digit : character.isDigit = true) :
    ∃ value : Fin 10, character = Text.asciiDigit value := by
  simp only [Char.isDigit, Bool.and_eq_true, decide_eq_true_eq] at digit
  have lower : 48 ≤ character.toNat := digit.1
  have upper : character.toNat ≤ 57 := digit.2
  refine ⟨⟨character.toNat - 48, by omega⟩, ?_⟩
  have same : '0'.toNat + (character.toNat - 48) = character.toNat := by
    show 48 + _ = _
    omega
  rw [Text.asciiDigit, same, Char.ofNat_toNat]

theorem latinDigit_of_isPlain {character : Char} (plain : IsPlain character) :
    latinDigit character = character := by
  rcases plain with digit | rfl | rfl
  · obtain ⟨value, rfl⟩ := exists_asciiDigit digit
    rw [latinDigit, Text.decimalDigit?_asciiDigit]
  · decide
  · decide

theorem isBlank_of_isPlain {character : Char} (plain : IsPlain character) :
    Text.isBlank character = false := by
  rcases plain with digit | rfl | rfl
  · obtain ⟨value, rfl⟩ := exists_asciiDigit digit
    revert value
    decide
  · decide
  · decide

/-- Where no character is blank, no blanks are taken away. -/
theorem trimBlanks_eq_self {text : List Char}
    (solid : ∀ character ∈ text, Text.isBlank character = false) : Text.trimBlanks text = text := by
  have unchanged : ∀ part : List Char, (∀ character ∈ part, Text.isBlank character = false) →
      part.dropWhile Text.isBlank = part := by
    intro part all
    cases part with
    | nil => rfl
    | cons first rest =>
      rw [List.dropWhile_cons, all first List.mem_cons_self, if_neg Bool.false_ne_true]
  rw [Text.trimBlanks, unchanged text solid, unchanged text.reverse, List.reverse_reverse]
  intro character member
  exact solid character (List.mem_reverse.mp member)

/-! ### Reading digits -/

theorem takeDigits_of_other {first : Char} (rest : List Char) (other : first.isDigit = false) :
    takeDigits (first :: rest) = ([], first :: rest) := by
  unfold takeDigits
  split
  · rename_i same
    cases same
    simp [other]
  · rename_i same
    cases same
    simp [other]
  · rename_i same
    cases same

theorem takeDigits_cons {digit : Char} {rest : List Char} (isDigit : digit.isDigit = true)
    (plain : rest.head? ≠ some '_') :
    takeDigits (digit :: rest) = (digit :: (takeDigits rest).1, (takeDigits rest).2) := by
  match rest with
  | [] =>
    rw [takeDigits]
    · rw [if_pos isDigit]
    · nofun
  | next :: others =>
    have other : next ≠ '_' := fun same => plain (congrArg some same)
    rw [takeDigits]
    · rw [if_pos isDigit]
    · rintro _ _ same
      exact other (List.cons.inj same).1

/-- Digits are taken up to a point or to the end. -/
theorem takeDigits_append {digits rest : List Char}
    (all : ∀ digit ∈ digits, digit.isDigit = true)
    (stops : rest = [] ∨ ∃ more, rest = '.' :: more) :
    takeDigits (digits ++ rest) = (digits, rest) := by
  induction digits with
  | nil =>
    rcases stops with rfl | ⟨more, rfl⟩
    · rfl
    · exact takeDigits_of_other more rfl
  | cons digit digits inductionHypothesis =>
    have plain : (digits ++ rest).head? ≠ some '_' := by
      cases digits with
      | nil => rcases stops with rfl | ⟨more, rfl⟩ <;> simp
      | cons next others =>
        have digit := all next (by simp)
        rintro same
        cases same
        cases digit
    rw [List.cons_append, takeDigits_cons (all digit List.mem_cons_self) plain,
      inductionHypothesis fun other member => all other (List.mem_cons_of_mem _ member)]

theorem takeSign_of_other {first : Char} (rest : List Char) (minus : first ≠ '-')
    (plus : first ≠ '+') : takeSign (first :: rest) = (false, first :: rest) := by
  unfold takeSign
  split
  · rename_i same
    cases same
    exact absurd rfl minus
  · rename_i same
    cases same
    exact absurd rfl plus
  · rfl

theorem toLower_asciiDigit : ∀ value : Fin 10, (Text.asciiDigit value).toLower ≠ 'i' ∧
    (Text.asciiDigit value).toLower ≠ 'n' := by
  decide

theorem isDigit_asciiDigit : ∀ value : Fin 10, (Text.asciiDigit value).isDigit = true := by
  decide

/-- What begins with a digit is no word. -/
theorem readMagnitude?_of_digit {first : Char} {rest : List Char} (digit : first.isDigit = true) :
    readMagnitude? (first :: rest) = (readNumeral? (first :: rest)).map Numeral.value := by
  obtain ⟨value, rfl⟩ := exists_asciiDigit digit
  obtain ⟨notI, notN⟩ := toLower_asciiDigit value
  have word : ∀ text : List Char, text.head? = some 'i' ∨ text.head? = some 'n' →
      (Text.asciiDigit value :: rest).map Char.toLower ≠ text := by
    rintro _ letter rfl
    rw [List.map_cons, List.head?_cons, Option.some_inj, Option.some_inj] at letter
    exact letter.elim notI notN
  rw [readMagnitude?, if_neg (not_or.mpr ⟨word _ (.inl rfl), word _ (.inl rfl)⟩),
    if_neg (word _ (.inr rfl))]

theorem readNumeral?_positional {whole fraction : List Char} (some : whole ≠ [])
    (wholeDigits : ∀ digit ∈ whole, digit.isDigit = true)
    (fractionDigits : ∀ digit ∈ fraction, digit.isDigit = true) :
    readNumeral? (whole ++ if fraction.isEmpty then [] else '.' :: fraction) =
      .some ⟨digitsValue 0 (whole ++ fraction), -fraction.length⟩ := by
  have taken : ∀ {rest}, (rest = [] ∨ ∃ more, rest = '.' :: more) →
      takeDigits (whole ++ rest) = (whole, rest) := takeDigits_append wholeDigits
  cases fraction with
  | nil =>
    rw [List.isEmpty_nil, if_pos rfl, readNumeral?, taken (.inl rfl)]
    have nonempty : whole.isEmpty = false := List.isEmpty_eq_false_iff.mpr some
    simp [takeFraction, nonempty, readExponent?]
  | cons first others =>
    have other := @takeDigits_append _ [] fractionDigits (.inl rfl)
    rw [List.append_nil] at other
    rw [List.isEmpty_cons, if_neg Bool.false_ne_true, readNumeral?, taken (.inr ⟨_, rfl⟩)]
    simp [takeFraction, other, readExponent?]

/-- What is dropped from the end of a list is one value, some number of times. -/
theorem exists_dropTrailing {α : Type} [BEq α] [LawfulBEq α] (last : α) (list : List α) :
    ∃ count, list = dropTrailing last list ++ List.replicate count last := by
  refine ⟨(list.rtakeWhile (· == last)).length, ?_⟩
  have same : ∀ value ∈ list.rtakeWhile (· == last), value = last := by
    intro value member
    exact eq_of_beq (@List.mem_rtakeWhile_imp _ (· == last) _ _ member)
  rw [← List.eq_replicate_of_mem same]
  exact List.rdropWhile_append_rtakeWhile.symm

namespace Numeral

variable {numeral : Numeral}

/-- The digits of a numeral are its significant ones and zeros. -/
theorem exists_zeros (numeral : Numeral) : ∃ count,
    Nat.toDigits 10 numeral.digits = numeral.significant ++ List.replicate count '0' :=
  exists_dropTrailing '0' _

theorem isDigit_of_mem_significant {digit : Char} (member : digit ∈ numeral.significant) :
    digit.isDigit = true := by
  obtain ⟨count, split⟩ := exists_zeros numeral
  have among : digit ∈ Nat.toDigits 10 numeral.digits := by
    rw [split]
    exact List.mem_append_left _ member
  exact Nat.isDigit_of_mem_toDigits (by decide) (by decide) among

/-- What a numeral says is said by its significant digits and its magnitude. -/
theorem rational_eq_significant (numeral : Numeral) :
    numeral.rational = digitsValue 0 numeral.significant *
      (10 : ℚ) ^ (numeral.magnitude - numeral.significant.length) := by
  obtain ⟨count, split⟩ := exists_zeros numeral
  have digits : numeral.digits = 10 ^ count * digitsValue 0 numeral.significant := by
    have value := @Nat.ofDigitChars_ten_toDigits numeral.digits
    rw [split, Nat.ofDigitChars_append, Nat.ofDigitChars_replicate_zero] at value
    exact value.symm
  by_cases none : numeral.digits = 0
  · have zero : digitsValue 0 numeral.significant = 0 := by
      rw [none] at digits
      exact (Nat.mul_eq_zero.mp digits.symm).resolve_left (Nat.pow_pos (by decide)).ne'
    rw [rational_eq_zero_iff.mpr none, zero, Nat.cast_zero, zero_mul]
  · have exponent : numeral.magnitude - numeral.significant.length = count + numeral.exponent := by
      rw [magnitude_of_some none, split, List.length_append, List.length_replicate]
      omega
    have cast : (numeral.digits : ℚ) = 10 ^ count * digitsValue 0 numeral.significant := by
      exact_mod_cast digits
    rw [exponent, zpow_add₀ (by norm_num), zpow_natCast, rational, cast]
    ring

/-! ### Positional notation -/

theorem wholeText_ne_nil (numeral : Numeral) : numeral.wholeText ≠ [] := by
  rw [wholeText]
  split
  · simp
  · intro empty
    have lengths := congrArg List.length empty
    simp only [List.length_append, List.length_take, List.length_replicate, List.length_nil]
      at lengths
    omega

theorem isDigit_of_mem_wholeText {digit : Char} (member : digit ∈ numeral.wholeText) :
    digit.isDigit = true := by
  rw [wholeText] at member
  split at member
  · rw [List.mem_singleton.mp member]
    rfl
  · rcases List.mem_append.mp member with taken | filled
    · exact isDigit_of_mem_significant (List.mem_of_mem_take taken)
    · rw [List.eq_of_mem_replicate filled]
      rfl

theorem isDigit_of_mem_fractionText {digit : Char} (member : digit ∈ numeral.fractionText) :
    digit.isDigit = true := by
  rcases List.mem_append.mp member with filled | dropped
  · rw [List.eq_of_mem_replicate filled]
    rfl
  · exact isDigit_of_mem_significant (List.mem_of_mem_drop dropped)

/-- Positional notation says what the numeral says. -/
theorem rational_positional (numeral : Numeral) :
    rational ⟨digitsValue 0 (numeral.wholeText ++ numeral.fractionText),
      -numeral.fractionText.length⟩ = numeral.rational := by
  have value : ∀ digits, digitsValue 0 digits = Nat.ofDigitChars 10 digits 0 := fun _ => rfl
  rw [rational_eq_significant numeral, rational, wholeText, fractionText, value, value]
  dsimp only
  by_cases small : numeral.magnitude ≤ 0
  · -- Everything stands after the point.
    have none : numeral.magnitude.toNat = 0 := by omega
    have place : -(((-numeral.magnitude).toNat + numeral.significant.length : ℕ) : ℤ) =
        numeral.magnitude - numeral.significant.length := by omega
    have zero : Nat.ofDigitChars 10 ['0'] 0 = 0 := rfl
    rw [if_pos small, none, List.drop_zero, Nat.ofDigitChars_append, zero, Nat.ofDigitChars_append,
      Nat.ofDigitChars_replicate_zero, mul_zero, List.length_append, List.length_replicate, place]
  · have none : (-numeral.magnitude).toNat = 0 := by omega
    rw [if_neg small, none, List.replicate_zero, List.nil_append]
    rcases Nat.le_total numeral.significant.length numeral.magnitude.toNat with whole | part
    · -- Nothing stands after the point.
      have place : numeral.magnitude - numeral.significant.length =
          ((numeral.magnitude.toNat - numeral.significant.length : ℕ) : ℤ) := by omega
      rw [List.take_of_length_le whole, List.drop_eq_nil_of_le whole, List.append_nil,
        Nat.ofDigitChars_append, Nat.ofDigitChars_replicate_zero, place, zpow_natCast,
        List.length_nil, Nat.cast_zero, neg_zero, zpow_zero, mul_one, mul_comm]
      push_cast
      rfl
    · have place : -((numeral.significant.length - numeral.magnitude.toNat : ℕ) : ℤ) =
          numeral.magnitude - numeral.significant.length := by omega
      rw [Nat.sub_eq_zero_of_le part, List.replicate_zero, List.append_nil,
        List.take_append_drop, List.length_drop, place]

/-- A plain spelling begins with a digit. -/
theorem exists_plainText_eq_cons (numeral : Numeral) : ∃ (value : Fin 10) (rest : List Char),
    numeral.plainText = Text.asciiDigit value :: rest := by
  obtain ⟨first, rest, whole⟩ := List.exists_cons_of_ne_nil (wholeText_ne_nil numeral)
  have member : first ∈ numeral.wholeText := by
    rw [whole]
    exact List.mem_cons_self
  obtain ⟨value, rfl⟩ := exists_asciiDigit (isDigit_of_mem_wholeText member)
  exact ⟨value, _, by rw [plainText, whole, List.cons_append]⟩

/-- The plain spelling of a numeral is read as its value. -/
theorem readMagnitude?_plainText (numeral : Numeral) :
    readMagnitude? numeral.plainText = some numeral.value := by
  obtain ⟨value, rest, spelled⟩ := exists_plainText_eq_cons numeral
  rw [spelled, readMagnitude?_of_digit (isDigit_asciiDigit value), ← spelled, plainText,
    readNumeral?_positional (wholeText_ne_nil numeral) (fun _ => isDigit_of_mem_wholeText)
      (fun _ => isDigit_of_mem_fractionText), Option.map_some,
    value_eq_of_rational_eq (rational_positional numeral)]

theorem digit_or_point_of_mem_plainText {character : Char}
    (member : character ∈ numeral.plainText) : character.isDigit = true ∨ character = '.' := by
  rcases List.mem_append.mp member with whole | point
  · exact .inl (isDigit_of_mem_wholeText whole)
  · split at point
    · cases point
    · rcases List.mem_cons.mp point with rfl | fraction
      · exact .inr rfl
      · exact .inl (isDigit_of_mem_fractionText fraction)

theorem takeSign_plainText (numeral : Numeral) (negative : Bool) :
    takeSign (signText negative ++ numeral.plainText) = (negative, numeral.plainText) := by
  cases negative with
  | true => rfl
  | false =>
    obtain ⟨value, rest, spelled⟩ := exists_plainText_eq_cons numeral
    have digit : Text.asciiDigit value ≠ '-' ∧ Text.asciiDigit value ≠ '+' := by
      clear spelled
      revert value
      decide
    rw [spelled]
    exact takeSign_of_other rest digit.1 digit.2

end Numeral

/-! ### Numbers -/

/-- A sign and a plain spelling are read as the signed value. -/
theorem read?_plainText (negative : Bool) (numeral : Numeral) :
    read? (String.ofList (signText negative ++ numeral.plainText)) =
      some (if negative then -numeral.value else numeral.value) := by
  have plain : ∀ character ∈ signText negative ++ numeral.plainText, IsPlain character := by
    intro character member
    rcases List.mem_append.mp member with sign | digits
    · cases negative with
      | true => exact .inr (.inr (List.mem_singleton.mp sign))
      | false => cases sign
    · exact (Numeral.digit_or_point_of_mem_plainText digits).imp_right .inl
  rw [read?, String.toList_ofList,
    trimBlanks_eq_self fun character member => isBlank_of_isPlain (plain character member),
    List.map_congr_left fun character member => latinDigit_of_isPlain (plain character member),
    List.map_id', Numeral.takeSign_plainText]
  dsimp only
  rw [Numeral.readMagnitude?_plainText, Option.map_some]

open Float.Model.UnpackedFloat (Sign)

theorem signed_abs {sign : Sign} {exact : ℚ} {value : Float}
    (holds : Floating.Holds sign exact value) :
    (if isMinus sign then -value.abs else value.abs) = value := by
  cases sign with
  | negative => exact holds.abs.neg.unique holds
  | positive => exact holds.abs.unique holds

/-- A finite number is read back from its plain spelling. -/
theorem read?_formatPlain {number : Float} (finite : number.isFinite = true) :
    read? (formatPlain number) = some number := by
  replace finite : number.toModel.unpack.isFinite = true := finite
  cases unpacked : number.toModel.unpack with
  | notANumber =>
    rw [unpacked] at finite
    cases finite
  | infinity sign =>
    rw [unpacked] at finite
    cases finite
  | zero sign =>
    have classified : classify number = .finite ⟨isMinus sign, 0, -1074⟩ := by
      rw [classify_eq, unpacked]
    have same := Floating.ofModel_pack_unpack number
    rw [unpacked] at same
    rw [formatPlain, classified]
    dsimp only
    rw [read?_plainText, shortest, if_pos rfl, ← same]
    cases sign <;> rfl
  | finite sign mantissa exponent positive =>
    have holds : Floating.Holds sign (Floating.scaled mantissa exponent) number :=
      ⟨mantissa, exponent, positive, unpacked, rfl⟩
    have classified : classify number = .finite ⟨isMinus sign, mantissa, exponent⟩ := by
      rw [classify_eq, unpacked]
    rw [formatPlain, classified]
    dsimp only
    rw [read?_plainText, value_shortest holds classified, signed_abs holds]

/-- A number without a minus is spelled without one. -/
theorem exists_formatPlain {exact : ℚ} {value : Float}
    (holds : Floating.Holds .positive exact value) :
    ∃ numeral : Numeral, formatPlain value = String.ofList numeral.plainText := by
  obtain ⟨binary, classified, plus, _⟩ := classify_of_holds holds
  refine ⟨shortest value binary, ?_⟩
  rw [formatPlain, classified]
  dsimp only
  rw [plus]
  rfl

end UnitSheet.Decimal
