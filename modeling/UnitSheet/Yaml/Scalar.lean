/-
This file reads the texts of a settings file: words, texts in quotes, and texts laid out in
lines. What is read comes with the place where the reading ends.

A word or a text in quotes may go on over several lines. A line end inside of it then becomes
a space, and further line ends stay; blanks beside the line ends are dropped. A word goes on
over a line only while the next line is indented enough, and ends at a comment, at a colon
before a separator, and between brackets at the signs that structure a list or mapping.
-/

import UnitSheet.Yaml.Cursor
import UnitSheet.Yaml.Kind
import UnitSheet.Yaml.Token

namespace UnitSheet.Yaml

/-! ### Line ends inside of texts -/

/-- A line end as it is kept. -/
def keptBreak (character : Char) : Char :=
  if character = '\u2028' ∨ character = '\u2029' then character else '\n'

/-- The line ends in front of a cursor with the blanks around them, the latest first, and the
cursor after them; none if a document begins or ends there. -/
def takeBreaks (isBlank : Char → Bool) (breaks : List Char) (cursor : Cursor) :
    Nat → Option (List Char × Cursor)
  | 0 => some (breaks, cursor)
  | limit + 1 =>
    if cursor.isDocumentMarker then none
    else
      let after := cursor.skip isBlank
      match after.rest with
      | character :: _ =>
        if isBreak character then
          takeBreaks isBlank (keptBreak character :: breaks) after.next limit
        else some (breaks, after)
      | [] => some (breaks, after)

/-- The text that line ends stand for. -/
def foldBreaks : List Char → List Char
  | [] => []
  | first :: rest => if first = '\n' then (if rest.isEmpty then [' '] else rest) else first :: rest

/-- The blanks and line ends between two parts of a text as they are kept, and the cursor after
them. -/
def takeSeparation (isBlank : Char → Bool) (cursor : Cursor) : Option (List Char × Cursor) :=
  let (blanks, after) := cursor.span isBlank
  match after.rest with
  | character :: rest =>
    if isBreak character then do
      let (breaks, after) ← takeBreaks isBlank [keptBreak character] after.next rest.length
      return (foldBreaks breaks.reverse, after)
    else some (blanks, after)
  | [] => some (blanks, after)

/-! ### Words -/

/-- Whether a colon ends a word, given the text after it. -/
def colonEnds (inFlow : Bool) (rest : List Char) : Bool :=
  startsWithGap rest || (inFlow && (rest.head?.any fun c => ",[]\x7b\x7d".contains c))

/-- The characters of a word up to the next separator. -/
def takeWord (inFlow : Bool) : List Char → List Char
  | [] => []
  | character :: rest =>
    if isGap character then []
    else if character == ':' && colonEnds inFlow rest then []
    else if inFlow && ",?[]\x7b\x7d".contains character then []
    else character :: takeWord inFlow rest

/-- A text without quotes. -/
structure PlainText where
  text : List Char
  /-- Whether the text ends with a line end, after which a key may stand. -/
  endsLine : Bool
  after : Cursor

/-- Words that follow each other, given those read before them. Every word but the first stands
at `indent` or further to the right. -/
def takeWords (inFlow : Bool) (indent : Int) (before : PlainText) (separation : List Char) :
    Nat → PlainText
  | 0 => before
  | limit + 1 =>
    let word := takeWord inFlow before.after.rest
    if word.isEmpty || word.head? == some '#' then before
    else
      let text := before.text ++ separation ++ word
      let afterWord := before.after.advance word.length
      match takeSeparation (· == ' ') afterWord with
      | none => ⟨text, true, afterWord.skipGap⟩
      | some (separation, after) =>
        let words : PlainText := ⟨text, after.line != afterWord.line, after⟩
        if separation.isEmpty || (!inFlow && (after.column : Int) < indent) then words
        else takeWords inFlow indent words separation limit

/-- Characters that cannot begin a word. -/
def isIndicator (character : Char) : Bool :=
  "-?:,[]\x7b\x7d#&*!|>'\"%@".contains character || character == Char.ofNat 96

/-- Whether a word begins here. A dash may begin one before anything but a separator, and so may
a question mark or a colon outside of brackets. -/
def startsWord (inFlow : Bool) (text : List Char) : Bool :=
  match text with
  | [] => false
  | character :: rest =>
    (!isGap character && !isIndicator character) ||
      (!startsWithGap rest &&
        (character == '-' || (!inFlow && (character == '?' || character == ':'))))

/-! ### Texts in quotes -/

/-- What a letter after a backslash stands for. -/
def simpleEscape? (character : Char) : Option Char :=
  [('0', '\x00'), ('a', '\x07'), ('b', '\x08'), ('t', '\t'), ('\t', '\t'), ('n', '\n'),
    ('v', '\x0b'), ('f', '\x0c'), ('r', '\r'), ('e', '\x1b'), (' ', ' '), ('"', '"'),
    ('\\', '\\'), ('/', '/'), ('N', '\u0085'), ('_', '\u00a0'), ('L', '\u2028'),
    ('P', '\u2029')].lookup character

/-- How many hexadecimal digits follow a letter after a backslash. -/
def escapeWidth? (character : Char) : Option Nat :=
  [('x', 2), ('u', 4), ('U', 8)].lookup character

/-- The code point with the number that hexadecimal digits give, which may be a surrogate. -/
def codedCharacter (digits : List Char) : Except Fault Nat :=
  match digits.foldlM (fun value digit => (digitValue? digit).map (16 * value + ·)) 0 with
  | none => .error .malformed
  | some number => if number < 0x110000 then .ok number else .error (.noCharacter number)

/-- The numbers of the characters of a text. -/
def codesOf (text : List Char) : List Nat :=
  text.map Char.toNat

/-- A result of a reading that is malformed if there is none. -/
def orMalformed {α : Type} (result : Option α) : Except Fault α :=
  result.elim (.error .malformed) .ok

/-- The code points that a backslash and the text after it stand for, and the cursor after it. A
backslash at the end of a line joins the next line without a space. -/
def takeEscape (cursor : Cursor) : Except Fault (List Nat × Cursor) :=
  match cursor.rest with
  | [] => .error .malformed
  | character :: rest =>
    if isBreak character then do
      let (breaks, after) ← orMalformed (takeBreaks isBlank [] cursor.next rest.length)
      return (codesOf breaks.reverse, after)
    else match simpleEscape? character, escapeWidth? character with
      | some meant, _ => .ok ([meant.toNat], cursor.next)
      | none, some width =>
        if (rest.take width).length < width then .error .malformed
        else do return ([← codedCharacter (rest.take width)], cursor.advance (1 + width))
      | none, none => .error .malformed

/-- The rest of a text in quotes of the kind `mark`, given the code points that have been read of
it. In double quotes a backslash escapes; in single quotes a doubled quote is a quote. -/
def takeQuoted (mark : Char) (codes : List Nat) (cursor : Cursor) :
    Nat → Except Fault (List Nat × Cursor)
  | 0 => .error .malformed
  | limit + 1 =>
    match cursor.rest with
    | [] => .error .malformed
    | character :: rest =>
      if character == mark then
        if mark == '\'' && rest.head? == some mark then
          takeQuoted mark (codes ++ [mark.toNat]) (cursor.advance 2) limit
        else .ok (codes, cursor.next)
      else if character == '\\' && mark == '"' then do
        let (meant, after) ← takeEscape cursor.next
        takeQuoted mark (codes ++ meant) after limit
      else if isGap character then do
        let (separation, after) ← orMalformed (takeSeparation isBlank cursor)
        takeQuoted mark (codes ++ codesOf separation) after limit
      else takeQuoted mark (codes ++ [character.toNat]) cursor.next limit

/-! ### Texts laid out in lines -/

/-- How a text laid out in lines is read. -/
structure LineStyle where
  /-- Line ends between lines become spaces. -/
  folded : Bool
  /-- All line ends at the end are kept, or none is; if nothing is said, one is. -/
  keepsEnd : Option Bool
  /-- How much further to the right the lines stand. -/
  increment : Option Nat

/-- What a sign says about the line ends at the end of a text. -/
def endSign? (character : Char) : Option Bool :=
  if character = '+' then some true else if character = '-' then some false else none

/-- The style after the sign of a text laid out in lines: a digit and a sign for the end, in either
order. A comment may follow. The cursor after it is that of the next line. -/
def readStyle (folded : Bool) (cursor : Cursor) : Except Fault (LineStyle × Cursor) :=
  let digit? (cursor : Cursor) : Option Nat :=
    cursor.rest.head?.bind fun c => if c.isDigit then some (c.toNat - '0'.toNat) else none
  let sign? (cursor : Cursor) : Option Bool := cursor.rest.head?.bind endSign?
  let (keepsEnd, increment, after) := match sign? cursor, digit? cursor with
    | some sign, _ =>
      match digit? cursor.next with
      | some digit => (some sign, some digit, cursor.advance 2)
      | none => (some sign, none, cursor.next)
    | none, some digit =>
      match sign? cursor.next with
      | some sign => (some sign, some digit, cursor.advance 2)
      | none => (none, some digit, cursor.next)
    | none, none => (none, none, cursor)
  let afterComment := (after.skip (· == ' ')).skipComment
  if increment == some 0 || !startsWithSpace after.rest || !startsWithBreak afterComment.rest then
    .error .malformed
  else .ok (⟨folded, keepsEnd, increment⟩, afterComment.next)

/-- The empty lines in front of a cursor, the latest first, the greatest column in them, and the
cursor after them. -/
def takeEmptyLines (breaks : List Char) (deepest : Nat) (cursor : Cursor) :
    Nat → List Char × Nat × Cursor
  | 0 => (breaks, deepest, cursor)
  | limit + 1 =>
    let after := cursor.skip (· == ' ')
    let deepest := max deepest after.column
    match after.rest with
    | character :: _ =>
      if isBreak character then
        takeEmptyLines (keptBreak character :: breaks) deepest after.next limit
      else (breaks, deepest, after)
    | [] => (breaks, deepest, after)

/-- The cursor after spaces up to a column. -/
def skipToColumn (column : Nat) (cursor : Cursor) : Cursor :=
  cursor.advance (min (cursor.rest.takeWhile (· == ' ')).length (column - cursor.column))

/-- The line ends in front of a cursor with spaces up to a column around them, the latest first,
and the cursor after them. -/
def takeIndentedBreaks (column : Nat) (breaks : List Char) (cursor : Cursor) :
    Nat → List Char × Cursor
  | 0 => (breaks, cursor)
  | limit + 1 =>
    let after := skipToColumn column cursor
    match after.rest with
    | character :: _ =>
      if isBreak character then
        takeIndentedBreaks column (keptBreak character :: breaks) after.next limit
      else (breaks, after)
    | [] => (breaks, after)

/-- What a line end between two lines of a text becomes, given the line ends after it. Next to a
line that begins with a blank it stays. -/
def joint (style : LineStyle) (lineEnd : List Char) (afterBlank beforeBlank : Bool)
    (breaks : List Char) : List Char :=
  if style.folded && lineEnd == ['\n'] && !afterBlank && !beforeBlank then
    if breaks.isEmpty then [' '] else []
  else lineEnd

/-- The lines of a text that stand at a column, given what has been read and the line ends in
front of the cursor, latest first. -/
def takeLines (style : LineStyle) (column : Nat) (text breaks : List Char) (cursor : Cursor) :
    Nat → List Char × Cursor
  | 0 => (text, cursor)
  | limit + 1 =>
    let (line, afterLine) := cursor.span (!isBreak ·)
    let text := text ++ breaks.reverse ++ line
    let lineEnd := (afterLine.rest.head?.map keptBreak).toList
    let (breaks, after) :=
      takeIndentedBreaks column [] afterLine.next (afterLine.rest.length + 1)
    if after.column == column && !after.rest.isEmpty then
      let startsBlank (text : List Char) : Bool := text.head?.any isBlank
      let joined := joint style lineEnd (startsBlank cursor.rest) (startsBlank after.rest) breaks
      takeLines style column (text ++ joined) breaks after limit
    else
      let kept := if style.keepsEnd == some false then [] else lineEnd
      let more := if style.keepsEnd == some true then breaks.reverse else []
      (text ++ kept ++ more, after)

/-- The text laid out in lines after a cursor, in a block that stands at `indent`. -/
def takeBlockText (style : LineStyle) (indent : Int) (cursor : Cursor) : List Char × Cursor :=
  let least := max 1 (indent + 1).toNat
  let limit := cursor.rest.length + 1
  let (column, breaks, after) := match style.increment with
    | some increment =>
      let column := least + increment - 1
      let (breaks, after) := takeIndentedBreaks column [] cursor limit
      (column, breaks, after)
    | none =>
      let (breaks, deepest, after) := takeEmptyLines [] 0 cursor limit
      (max least deepest, breaks, after)
  if after.column == column && !after.rest.isEmpty then
    takeLines style column [] breaks after limit
  else
    (if style.keepsEnd == some true then breaks.reverse else [], after)

end UnitSheet.Yaml
