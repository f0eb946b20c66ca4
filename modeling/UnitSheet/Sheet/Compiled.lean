/-
This file turns a document into a worksheet that can be evaluated.

Every line is cut into tokens; a line that begins with a name and a colon declares the name,
and the last of several declarations of a name counts. A line depends on the lines whose
names it mentions. A document in which a line depends on itself is refused as a whole;
anything else that is wrong with a line stays on the line.
-/

import UnitSheet.Expression.Line
import UnitSheet.Sheet.Traversal
import UnitSheet.Text.Pieces
import UnitSheet.Token.Scan

namespace UnitSheet

/-- A line of which the tokens are known. -/
structure Draft where
  name : Option String
  tokens : List Token
  rawTokens : List Token
  unreadable : Option Token.UnknownCharacter

namespace Draft

/-- The name that a line declares, and the tokens after the declaration. -/
def splitDeclaration : List Token → Option String × List Token
  | first :: second :: rest =>
    if first.kind = .literal ∧ second.kind = .definition then (some first.text, rest)
    else (none, first :: second :: rest)
  | tokens => (none, tokens)

/-- The draft of a line. A line with an unknown character has no tokens. -/
def ofText (line : List Char) : Draft :=
  match Token.read line with
  | .error unknown => ⟨none, [], [], some unknown⟩
  | .ok rawTokens =>
    let (name, tokens) := splitDeclaration (Token.meaningful rawTokens)
    ⟨name, tokens, rawTokens, none⟩

/-- The line that declares each name. -/
def declarations (drafts : List Draft) : Table Nat :=
  Table.ofList (drafts.zipIdx.filterMap fun (draft, index) =>
    draft.name.map fun name => (name, index))

/-- The lines whose names are mentioned on a line. -/
def mentioned (names : Table Nat) (draft : Draft) : List Nat :=
  draft.tokens.filterMap fun token =>
    if token.kind = .literal then names.find? token.text else none

end Draft

/-- Why a line cannot be evaluated, known before anything is. -/
inductive ReadError where
  | token (unknown : Token.UnknownCharacter)
  | parse (error : ParseError)

/-- The words for it. -/
def ReadError.message : ReadError → String
  | token unknown => unknown.message
  | parse error => error.message

namespace Sheet

/-- A line of a worksheet: the name it declares, the tokens of its expression, all tokens of the
line, the lines it depends on, and its tree unless it has no meaning. -/
structure Line where
  name : Option String
  tokens : List Token
  rawTokens : List Token
  dependencies : List Nat
  tree : Except ReadError Node

/-- A line without an expression. -/
def Line.isBlank (line : Line) : Bool :=
  line.tokens.isEmpty

/-- The line of a draft. -/
def Line.ofDraft (catalog : Catalog) (names : Table Nat) (draft : Draft) : Line where
  name := draft.name
  tokens := draft.tokens
  rawTokens := draft.rawTokens
  dependencies := draft.mentioned names
  tree := match draft.unreadable with
    | some unknown => .error (.token unknown)
    | none => (Node.ofLine ⟨names.keys, catalog⟩ draft.tokens).mapError .parse

end Sheet

/-- A document ready for evaluation: its lines, the line that declares each name, and the order
of evaluation. -/
structure Sheet where
  lines : List Sheet.Line
  names : Table Nat
  order : List Nat

/-- A document is refused because a line depends on itself. -/
structure CyclicSheet where

/-- The words for the refusal. -/
def CyclicSheet.message (_ : CyclicSheet) : String :=
  "cyclical definitions detected"

namespace Sheet

/-- The worksheet of a document, with the units and exchange rates of a catalogue. -/
def compile (catalog : Catalog) (source : String) : Except CyclicSheet Sheet :=
  let drafts := (Text.sheetLines source).map Draft.ofText
  let names := Draft.declarations drafts
  let dependencies : Dependencies := drafts.map (Draft.mentioned names)
  if dependencies.isCyclic then .error ⟨⟩
  else .ok ⟨drafts.map (Line.ofDraft catalog names), names, dependencies.order⟩

end Sheet

end UnitSheet
