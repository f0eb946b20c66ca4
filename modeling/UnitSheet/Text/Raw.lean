/-
This file holds texts that may have surrogates in them.

A surrogate is a code point that no character has. The text of a file has none, but a settings
file can name one by its number. A text with surrogates is as good as any other until it is
written: then messages show an escape in the place of each, and the output refuses the text.
-/

import UnitSheet.Text.Quoted

namespace UnitSheet

/-- A text as a sequence of code points; one with surrogates is given by their numbers. -/
inductive RawText where
  | plain (text : String)
  | surrogates (codes : List Nat) (unpaired : ∃ code ∈ codes, ¬ code.isValidChar)
  deriving DecidableEq

namespace RawText

instance : Coe String RawText := ⟨plain⟩

/-- The numbers of the code points. -/
def codes : RawText → List Nat
  | plain text => text.toList.map Char.toNat
  | surrogates codes _ => codes

/-- The text with the code points of some numbers. -/
def ofCodes (codes : List Nat) : RawText :=
  if unpaired : ∃ code ∈ codes, ¬ code.isValidChar then surrogates codes unpaired
  else plain (String.ofList (codes.map Char.ofNat))

/-- The text as it is written to the output, which refuses surrogates. -/
def written? : RawText → Option String
  | plain text => some text
  | surrogates _ _ => none

/-! ### Lines -/

/-- Texts with line feeds between them. -/
def joinLines (lines : List RawText) : RawText :=
  ofCodes (List.intercalate ['\n'.toNat] (lines.map codes))

/-- The code points of a text that is written are those of characters. -/
theorem written?_eq_none_iff {text : RawText} :
    text.written? = none ↔ ∃ code ∈ text.codes, ¬ code.isValidChar := by
  cases text with
  | plain text =>
    refine iff_of_false nofun ?_
    rintro ⟨code, member, invalid⟩
    obtain ⟨character, _, rfl⟩ := List.mem_map.mp member
    exact invalid character.valid
  | surrogates codes unpaired => exact iff_of_true rfl unpaired

theorem written?_ofCodes_eq_none_iff {codes : List Nat} :
    (ofCodes codes).written? = none ↔ ∃ code ∈ codes, ¬ code.isValidChar := by
  rw [ofCodes]
  split
  · rename_i unpaired
    exact iff_of_true rfl unpaired
  · rename_i proper
    exact iff_of_false nofun proper

/-- The code points of lines that are put together are those of the lines, and line feeds. -/
theorem exists_mem_intercalate_iff {lines : List (List Nat)} :
    (∃ code ∈ List.intercalate ['\n'.toNat] lines, ¬ code.isValidChar) ↔
      ∃ line ∈ lines, ∃ code ∈ line, ¬ code.isValidChar := by
  induction lines with
  | nil => exact iff_of_false nofun nofun
  | cons line rest inductionHypothesis =>
    cases rest with
    | nil => simp [List.intercalate]
    | cons next others =>
      have lineFeed : '\n'.toNat.isValidChar := '\n'.valid
      have parts : List.intercalate ['\n'.toNat] (line :: next :: others) =
          line ++ '\n'.toNat :: List.intercalate ['\n'.toNat] (next :: others) := rfl
      rw [parts]
      simp only [List.mem_append, List.mem_cons, or_and_right, exists_or, exists_eq_left,
        lineFeed, not_true_eq_false, false_or] at inductionHypothesis ⊢
      rw [inductionHypothesis]

/-- A text put together from lines is refused exactly if one of the lines is. -/
theorem written?_joinLines_eq_none_iff {lines : List RawText} :
    (joinLines lines).written? = none ↔ ∃ line ∈ lines, line.written? = none := by
  rw [joinLines, written?_ofCodes_eq_none_iff, exists_mem_intercalate_iff]
  constructor
  · rintro ⟨_, member, unpaired⟩
    obtain ⟨line, isLine, rfl⟩ := List.mem_map.mp member
    exact ⟨line, isLine, written?_eq_none_iff.mpr unpaired⟩
  · rintro ⟨line, isLine, refused⟩
    exact ⟨line.codes, List.mem_map_of_mem isLine, written?_eq_none_iff.mp refused⟩

/-! ### Messages -/

/-- Code points with `each` for the characters, and escapes for the surrogates. -/
def spell (each : Char → List Char) (codes : List Nat) : List Char :=
  codes.flatMap fun code =>
    if code.isValidChar then each (Char.ofNat code) else '\\' :: 'u' :: Text.hexadecimal 4 code

/-- The text as a message shows it. -/
def shown : RawText → String
  | plain text => text
  | surrogates codes _ => String.ofList (spell (fun character => [character]) codes)

instance : CoeOut RawText String := ⟨shown⟩

/-- The text between quotes. -/
def quote : RawText → String
  | plain text => Text.quote text
  | surrogates codes _ =>
    let mark := Text.quoteMark ((codes.filter (·.isValidChar)).map Char.ofNat)
    String.ofList (mark :: (spell (Text.quotedCharacter mark) codes ++ [mark]))

end RawText

end UnitSheet
