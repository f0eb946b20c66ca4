/-
This file holds the place at which a settings file is being read.

Settings files are written in YAML, whose structure shows in lines and columns, so the text
that is left is kept together with its line and column. Every way of going on is made of
steps over one character, which know about line ends.
-/

namespace UnitSheet.Yaml

/-! ### Classes of characters -/

/-- Characters that end a line. -/
def isBreak (character : Char) : Bool :=
  character == '\n' || character == '\r' || character == '\u0085' || character == '\u2028' ||
    character == '\u2029'

/-- Characters that end a line, and those that separate words. -/
def isGap (character : Char) : Bool :=
  character == ' ' || character == '\t' || isBreak character

/-- Spaces and tabulators. -/
def isBlank (character : Char) : Bool :=
  character == ' ' || character == '\t'

/-- Characters of the names of anchors and directives. -/
def isNameCharacter (character : Char) : Bool :=
  character.isAlphanum || character == '-' || character == '_'

/-- Whether a text is at its end or begins with a separator. -/
def startsWithGap : List Char → Bool
  | [] => true
  | character :: _ => isGap character

/-- Whether a text is at its end or begins with a space or a line end. -/
def startsWithSpace : List Char → Bool
  | [] => true
  | character :: _ => character == ' ' || isBreak character

/-- Whether a text is at its end or begins with a line end. -/
def startsWithBreak : List Char → Bool
  | [] => true
  | character :: _ => isBreak character

/-- Characters that a settings file may contain. -/
def isAllowed (character : Char) : Bool :=
  let code := character.toNat
  code == 0x9 || code == 0xA || code == 0xD || (0x20 ≤ code && code ≤ 0x7E) || code == 0x85 ||
    (0xA0 ≤ code && code ≤ 0xFFFD) || 0x10000 ≤ code

/-! ### Places in a text -/

/-- The text that is left, how many characters are before it, and where it starts. -/
structure Cursor where
  rest : List Char
  index : Nat
  line : Nat
  column : Nat

namespace Cursor

/-- The start of a text. A byte order mark is not part of it. -/
def start (text : List Char) : Cursor :=
  match text with
  | '\ufeff' :: rest => ⟨rest, 1, 0, 0⟩
  | _ => ⟨text, 0, 0, 0⟩

/-- The cursor after the next character. A byte order mark takes no column. -/
def next (cursor : Cursor) : Cursor :=
  match cursor.rest with
  | [] => cursor
  | character :: rest =>
    if isBreak character then ⟨rest, cursor.index + 1, cursor.line + 1, 0⟩
    else if character = '\ufeff' then ⟨rest, cursor.index + 1, cursor.line, cursor.column⟩
    else ⟨rest, cursor.index + 1, cursor.line, cursor.column + 1⟩

/-- The cursor after some characters. -/
def advance (cursor : Cursor) : Nat → Cursor
  | 0 => cursor
  | count + 1 => cursor.next.advance count

/-- The characters that pass a test, and the cursor after them. -/
def span (test : Char → Bool) (cursor : Cursor) : List Char × Cursor :=
  let taken := cursor.rest.takeWhile test
  (taken, cursor.advance taken.length)

/-- The cursor after the characters that pass a test. -/
def skip (test : Char → Bool) (cursor : Cursor) : Cursor :=
  (cursor.span test).2

/-- The cursor after a comment, if one begins here. -/
def skipComment (cursor : Cursor) : Cursor :=
  if cursor.rest.head? == some '#' then cursor.skip (!isBreak ·) else cursor

/-- The cursor after spaces, comments and line ends, as many of each as there are, but at most
`limit` lines. -/
def skipGapWithin (cursor : Cursor) : Nat → Cursor
  | 0 => cursor
  | limit + 1 =>
    let after := (cursor.skip (· == ' ')).skipComment
    match after.rest with
    | character :: _ => if isBreak character then after.next.skipGapWithin limit else after
    | [] => after

/-- The cursor after spaces, comments and line ends. -/
def skipGap (cursor : Cursor) : Cursor :=
  cursor.skipGapWithin (cursor.rest.length + 1)

/-- Whether the text begins with three given characters and a separator. -/
def isMarker (cursor : Cursor) (mark : Char) : Bool :=
  cursor.rest.take 3 == [mark, mark, mark] && startsWithGap (cursor.rest.drop 3)

/-- Whether a document begins here. -/
def isDocumentStart (cursor : Cursor) : Bool :=
  cursor.column == 0 && cursor.isMarker '-'

/-- Whether a document ends here. -/
def isDocumentEnd (cursor : Cursor) : Bool :=
  cursor.column == 0 && cursor.isMarker '.'

/-- Whether a document begins or ends here. -/
def isDocumentMarker (cursor : Cursor) : Bool :=
  cursor.isDocumentStart || cursor.isDocumentEnd

end Cursor

end UnitSheet.Yaml
