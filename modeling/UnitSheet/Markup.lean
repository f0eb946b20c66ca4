/-
This file highlights documents.

Every token becomes a span whose class names its kind; names of functions and of constants
have classes of their own, and what stands from an opening to a closing bracket is marked
as part of a unit. Nothing is evaluated, so unknown characters and lines without meaning
are highlighted as well.
-/

import UnitSheet.Expression.Reading
import UnitSheet.Text.Pieces
import UnitSheet.Token.Scan

namespace UnitSheet.Markup

/-- The class of a token outside of unit brackets. -/
def tokenClass (token : Token) : String :=
  if token.kind ≠ .literal then token.kind.name
  else if Vocabulary.functions.contains token.text then "function"
  else if Vocabulary.constants.contains token.text then "constant"
  else "literal"

/-- The classes and texts of tokens, given whether a unit bracket is open. -/
def classifyFrom (inUnit : Bool) : List Token → List (String × String)
  | [] => []
  | token :: rest =>
    let marked := inUnit || token.isSign .bracket "["
    let name := if marked then tokenClass token ++ "-unit" else tokenClass token
    (name, token.text) :: classifyFrom (marked && !token.isSign .bracket "]") rest

/-- The classes and texts of the tokens of a line. -/
def classify (tokens : List Token) : List (String × String) :=
  classifyFrom false tokens

/-- A character as it stands in markup. -/
def escapeCharacter (character : Char) : List Char :=
  if character = '&' then "&amp;".toList
  else if character = '<' then "&lt;".toList
  else if character = '>' then "&gt;".toList
  else if character = '"' then "&quot;".toList
  else if character = '\'' then "&#x27;".toList
  else [character]

/-- A text as it stands in markup. -/
def escape (text : String) : String :=
  String.ofList (text.toList.flatMap escapeCharacter)

/-- The span of a token. -/
def span (name text : String) : String :=
  "<span class=\"calc-token-" ++ name ++ "\">" ++ escape text ++ "</span>"

/-- The markup of a line. -/
def line (tokens : List Token) : String :=
  String.join ((classify tokens).map fun (name, text) => span name text)

/-- The tokens of every line of a document. -/
def tokens (source : String) : List (List Token) :=
  (Text.sheetLines source).map Token.scan

/-- The markup of a document. -/
def document (source : String) : String :=
  String.intercalate "<br/>" ((tokens source).map line)

end UnitSheet.Markup
