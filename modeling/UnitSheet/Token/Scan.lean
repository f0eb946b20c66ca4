/-
This file cuts lines into tokens.

There are two ways to meet a character that begins no token. `Token.scan` makes a token of
it and so covers every line; `Token.read` refuses the line and says where the character
stands.
-/

import UnitSheet.Token.Basic

namespace UnitSheet.Token

/-- A character that begins no token, and its column, counted from one. -/
structure UnknownCharacter where
  column : Nat
  character : Char
  deriving DecidableEq

/-- The words for an unknown character. -/
def UnknownCharacter.message (unknown : UnknownCharacter) : String :=
  "col " ++ toString unknown.column ++ ": unknown character: " ++
    Text.quote (String.singleton unknown.character)

/-- The token at the start of a text that begins with `first`. -/
def leading (first : Char) (rest : List Char) : Token :=
  let kind := Kind.ofFirst first
  ⟨kind, String.ofList (first :: rest.takeWhile kind.continues)⟩

/-- The text after the token at the start. -/
def afterLeading (first : Char) (rest : List Char) : List Char :=
  rest.dropWhile (Kind.ofFirst first).continues

/-- The text after a token is shorter than the text. -/
theorem length_afterLeading_lt (first : Char) (rest : List Char) :
    (afterLeading first rest).length < (first :: rest).length :=
  Nat.lt_succ_of_le (List.dropWhile_suffix _).length_le

/-- The tokens of a line, whatever characters it has. -/
def scan : List Char → List Token
  | [] => []
  | first :: rest => leading first rest :: scan (afterLeading first rest)
termination_by line => line.length
decreasing_by exact length_afterLeading_lt first rest

/-- The tokens of a text that starts at a column of a line, if every character belongs to one. -/
def readFrom (column : Nat) : List Char → Except UnknownCharacter (List Token)
  | [] => .ok []
  | first :: rest =>
    if Kind.ofFirst first = .unknown then .error ⟨column, first⟩
    else do
      let token := leading first rest
      let others ← readFrom (column + token.text.length) (afterLeading first rest)
      return token :: others
termination_by line => line.length
decreasing_by exact length_afterLeading_lt first rest

/-- The tokens of a line, if every character belongs to one. -/
def read (line : List Char) : Except UnknownCharacter (List Token) :=
  readFrom 1 line

/-! ### Single lines given from outside -/

/-- Why a text is refused as a line. -/
inductive LineError where
  | lineFeed
  | unknown (unknown : UnknownCharacter)

/-- The words for a refused line. -/
def LineError.message : LineError → String
  | lineFeed => "tokenize() expects a single line, found a newline"
  | unknown found => found.message

/-- The tokens of a text that has to be one line. A permissive reading makes tokens of unknown
characters. -/
def ofLine (permissive : Bool) (text : String) : Except LineError (List Token) :=
  if text.toList.contains '\n' then .error .lineFeed
  else if permissive then .ok (scan text.toList)
  else (read text.toList).mapError .unknown

end UnitSheet.Token
