/-
This file holds the tokens of a line.

A token has a kind and a text. The first character decides the kind, and the kind decides
which characters may follow: the text is the longest run of them. A comment reaches to the
end of the line. Characters that begin nothing are tokens of their own.
-/

import UnitSheet.Text.Quoted

namespace UnitSheet

namespace Token

/-- What a token is. -/
inductive Kind where
  | number
  | literal
  | operator
  | paren
  | bracket
  | definition
  | comment
  | whitespace
  | unknown
  deriving DecidableEq

/-! ### Classes of characters -/

/-- Spaces and tabulators stand between tokens. -/
def isSpacing (character : Char) : Bool :=
  character == ' ' || character == '\t'

/-- A number goes on with digits, separators and the percent sign. -/
def isNumeric (character : Char) : Bool :=
  character.isDigit || character == '.' || character == ',' || character == '%'

/-- A name begins with a basic Latin letter or an underscore. -/
def beginsName (character : Char) : Bool :=
  character.isAlpha || character == '_'

/-- A name goes on with letters, digits and underscores. -/
def continuesName (character : Char) : Bool :=
  beginsName character || character.isDigit

/-- The five signs of arithmetic. -/
def isOperator (character : Char) : Bool :=
  character == '+' || character == '-' || character == '*' || character == '/' ||
    character == '^'

namespace Kind

/-- The word for a kind. -/
def name : Kind → String
  | number => "number"
  | literal => "literal"
  | operator => "operator"
  | paren => "paren"
  | bracket => "bracket"
  | definition => "definition"
  | comment => "comment"
  | whitespace => "whitespace"
  | unknown => "unknown"

/-- The kind of the token that a character begins. -/
def ofFirst (first : Char) : Kind :=
  if first == '#' then comment
  else if isSpacing first then whitespace
  else if first == '(' || first == ')' then paren
  else if first == '[' || first == ']' then bracket
  else if first == ':' then definition
  else if isOperator first then operator
  else if first.isDigit then number
  else if beginsName first then literal
  else unknown

/-- Whether a character goes on with a token of this kind. -/
def continues : Kind → Char → Bool
  | number => isNumeric
  | literal => continuesName
  | whitespace => isSpacing
  | comment => fun _ => true
  | operator | paren | bracket | definition | unknown => fun _ => false

/-- Comments and spacing do not take part in the meaning of a line. -/
def isMeaningful : Kind → Bool
  | comment | whitespace => false
  | _ => true

end Kind

end Token

/-- A piece of a line. -/
structure Token where
  kind : Token.Kind
  text : String
  deriving DecidableEq

namespace Token

/-- The token with its kind, for inspection. -/
def label (token : Token) : String :=
  "[" ++ token.kind.name ++ "] " ++ token.text

/-- Whether a token is a given sign. -/
def isSign (token : Token) (kind : Kind) (text : String) : Bool :=
  token.kind == kind && token.text == text

/-- The tokens that take part in the meaning of a line. -/
def meaningful (tokens : List Token) : List Token :=
  tokens.filter fun token => token.kind.isMeaningful

end Token

end UnitSheet
