/-
This file cuts a settings file into tokens.

The layout of the file becomes tokens too. A list begins at a dash and a mapping at a key
that stands further to the right than the block around it, and a block ends where something
stands further to the left. That a text is a key shows only at the colon after it: until then
its place is remembered as a candidate, and the tokens of the key are put in at that place. A
key that is not marked stands on one line, and is not longer than `maxKeyLength`.
-/

import UnitSheet.Yaml.Scalar
import UnitSheet.Yaml.Tag

namespace UnitSheet.Yaml

/-- The greatest count of characters before the colon of a key that is not marked. -/
def maxKeyLength : Nat := 1024

/-- A place at which a key may begin. -/
structure Candidate where
  /-- How many brackets are open around it. -/
  depth : Nat
  /-- How many tokens are before it. -/
  position : Nat
  /-- Only a key can stand at its column. -/
  required : Bool
  start : Cursor

/-- A settings file of which some tokens are known, the latest first. -/
structure Layout where
  cursor : Cursor
  tokens : List Token
  /-- How many brackets are open. -/
  depth : Nat
  /-- The column of the innermost block, and those of the blocks around it. -/
  indent : Int
  outer : List Int
  /-- Whether a key may begin here. -/
  keyAllowed : Bool
  candidates : List Candidate
  finished : Bool

namespace Layout

/-- A file of which no token is known. -/
def start (text : List Char) : Layout :=
  ⟨Cursor.start text, [], 0, -1, [], true, [], false⟩

/-- Whether brackets are open. -/
def inFlow (layout : Layout) : Bool :=
  layout.depth != 0

/-- The layout with one more token, which takes some characters. -/
def push (layout : Layout) (token : Token) (width : Nat) : Layout :=
  { layout with tokens := token :: layout.tokens, cursor := layout.cursor.advance width }

/-! ### Blocks -/

/-- Ends blocks, from the inside out, until none stands to the right of a column. -/
def endBlocks (column : Int) (tokens : List Token) (indent : Int) :
    List Int → List Token × Int × List Int
  | [] => (tokens, indent, [])
  | around :: others =>
    if column < indent then endBlocks column (.blockEnd :: tokens) around others
    else (tokens, indent, around :: others)

/-- Ends the blocks that stand to the right of a column; between brackets columns do not count. -/
def unwind (layout : Layout) (column : Int) : Layout :=
  if layout.inFlow then layout
  else
    let (tokens, indent, outer) := endBlocks column layout.tokens layout.indent layout.outer
    { layout with tokens := tokens, indent := indent, outer := outer }

/-- Begins a block with a token before the last `later` tokens, if a column is to the right of the
innermost block; between brackets there are no blocks. -/
def beginBlock (layout : Layout) (token : Token) (column later : Nat) : Layout :=
  if !layout.inFlow && layout.indent < (column : Int) then
    { layout with
      tokens := layout.tokens.take later ++ token :: layout.tokens.drop later
      indent := column
      outer := layout.indent :: layout.outer }
  else layout

/-! ### Keys -/

/-- The candidate between the brackets that are open, if there is one. -/
def candidate? (layout : Layout) : Option Candidate :=
  layout.candidates.find? fun candidate => candidate.depth == layout.depth

/-- The candidates around the brackets that are open. -/
def otherCandidates (layout : Layout) : List Candidate :=
  layout.candidates.filter fun candidate => candidate.depth != layout.depth

/-- The layout without a candidate between the brackets that are open. -/
def dropCandidate (layout : Layout) : Except Fault Layout :=
  if layout.candidate?.any Candidate.required then .error .malformed
  else .ok { layout with candidates := layout.otherCandidates }

/-- Whether a candidate can still become a key. -/
def isLive (layout : Layout) (candidate : Candidate) : Bool :=
  candidate.start.line == layout.cursor.line &&
    layout.cursor.index - candidate.start.index ≤ maxKeyLength

/-- The layout with those candidates only that can still become keys. -/
def dropStale (layout : Layout) : Except Fault Layout :=
  let (live, stale) := layout.candidates.partition layout.isLive
  if stale.any Candidate.required then .error .malformed
  else .ok { layout with candidates := live }

/-- The layout in which a key may begin at the cursor, if one is allowed there. -/
def addCandidate (layout : Layout) : Except Fault Layout :=
  if layout.keyAllowed then do
    let layout ← layout.dropCandidate
    let required := !layout.inFlow && layout.indent == (layout.cursor.column : Int)
    let candidate := ⟨layout.depth, layout.tokens.length, required, layout.cursor⟩
    return { layout with candidates := candidate :: layout.candidates }
  else .ok layout

/-! ### Signs -/

/-- The layout after a gap. After a line end a key may begin, unless brackets are open. -/
def skipGap (layout : Layout) : Layout :=
  let after := layout.cursor.skipGap
  { layout with
    cursor := after
    keyAllowed := layout.keyAllowed || (!layout.inFlow && after.line != layout.cursor.line) }

/-- Ends all blocks. -/
def endAll (layout : Layout) : Except Fault Layout := do
  let layout ← (layout.unwind (-1)).dropCandidate
  return { layout with keyAllowed := false }

/-- The beginning or the end of a document. -/
def readMarker (layout : Layout) (token : Token) : Except Fault Layout := do
  return (← layout.endAll).push token 3

/-- A bracket that opens. -/
def readOpen (layout : Layout) (token : Token) : Except Fault Layout := do
  let layout ← layout.addCandidate
  return { layout.push token 1 with depth := layout.depth + 1, keyAllowed := true }

/-- A bracket that closes. -/
def readClose (layout : Layout) (token : Token) : Except Fault Layout := do
  let layout ← layout.dropCandidate
  if layout.depth = 0 then .error .malformed
  else return { layout.push token 1 with depth := layout.depth - 1, keyAllowed := false }

/-- A comma between brackets. -/
def readComma (layout : Layout) : Except Fault Layout := do
  let layout ← layout.dropCandidate
  return { layout.push .comma 1 with keyAllowed := true }

/-- A sign that begins a block if none stands in its column, where a key is allowed. -/
def readBlockSign (layout : Layout) (block : Token) : Except Fault Layout :=
  if !layout.inFlow && !layout.keyAllowed then .error .malformed
  else (layout.beginBlock block layout.cursor.column 0).dropCandidate

/-- The dash before an item. -/
def readDash (layout : Layout) : Except Fault Layout := do
  let layout ← layout.readBlockSign .itemsStart
  return { layout.push .dash 1 with keyAllowed := true }

/-- The mark before a key. -/
def readKeyMark (layout : Layout) : Except Fault Layout := do
  let layout ← layout.readBlockSign .entriesStart
  return { layout.push .key 1 with keyAllowed := !layout.inFlow }

/-- The colon before a value. If there is a candidate it becomes the key. -/
def readColon (layout : Layout) : Except Fault Layout :=
  match layout.candidate? with
  | some candidate =>
    let later := layout.tokens.length - candidate.position
    let tokens := layout.tokens.take later ++ .key :: layout.tokens.drop later
    let layout := { layout with tokens := tokens, candidates := layout.otherCandidates }
    let layout := layout.beginBlock .entriesStart candidate.start.column (later + 1)
    .ok { layout.push .colon 1 with keyAllowed := false }
  | none => do
    let layout ← layout.readBlockSign .entriesStart
    return { layout.push .colon 1 with keyAllowed := !layout.inFlow }

/-! ### Names -/

/-- The name of an anchor after its sign. -/
def readName (layout : Layout) (token : String → Token) : Except Fault Layout := do
  let layout ← layout.addCandidate
  let (name, after) := layout.cursor.next.span isNameCharacter
  let ends := startsWithGap after.rest ||
    after.rest.head?.any fun c => "?:,]\x7d%@".contains c || c == Char.ofNat 96
  if name.isEmpty || !ends then .error .malformed
  else return { layout with
    cursor := after, keyAllowed := false, tokens := token (String.ofList name) :: layout.tokens }

/-- A tag. -/
def readTag (layout : Layout) : Except Fault Layout := do
  let layout ← layout.addCandidate
  let (token, after) ← takeTag layout.cursor
  return { layout with cursor := after, keyAllowed := false, tokens := token :: layout.tokens }

/-- A line for the reader of the file. -/
def readDirective (layout : Layout) : Except Fault Layout := do
  let layout ← layout.endAll
  let (directive, after) ← takeDirective layout.cursor
  return { layout with cursor := after, tokens := .directive directive :: layout.tokens }

/-! ### Texts -/

/-- A text in quotes. -/
def readQuoted (layout : Layout) (mark : Char) : Except Fault Layout := do
  let layout ← layout.addCandidate
  let (codes, after) ← takeQuoted mark [] layout.cursor.next layout.cursor.rest.length
  return { layout with
    cursor := after, keyAllowed := false
    tokens := .scalar false (RawText.ofCodes codes) :: layout.tokens }

/-- A text without quotes. -/
def readPlain (layout : Layout) : Except Fault Layout := do
  let layout ← layout.addCandidate
  let words := takeWords layout.inFlow (layout.indent + 1) ⟨[], false, layout.cursor⟩ []
    (layout.cursor.rest.length + 1)
  return { layout with
    cursor := words.after, keyAllowed := words.endsLine
    tokens := .scalar true (String.ofList words.text) :: layout.tokens }

/-- A text laid out in lines. -/
def readLines (layout : Layout) (folded : Bool) : Except Fault Layout := do
  let layout ← layout.dropCandidate
  let (style, start) ← readStyle folded layout.cursor.next
  let (text, after) := takeBlockText style layout.indent start
  return { layout with
    cursor := after, keyAllowed := true
    tokens := .scalar false (String.ofList text) :: layout.tokens }

/-! ### The next token -/

/-- The token that a character begins. -/
def readAt (layout : Layout) (character : Char) (rest : List Char) : Except Fault Layout :=
  let cursor := layout.cursor
  let isSign := layout.inFlow || startsWithGap rest
  if character = '%' && cursor.column = 0 then layout.readDirective
  else if cursor.isDocumentStart then layout.readMarker .documentStart
  else if cursor.isDocumentEnd then layout.readMarker .documentEnd
  else if character = '[' then layout.readOpen .openList
  else if character = '\x7b' then layout.readOpen .openMapping
  else if character = ']' then layout.readClose .closeList
  else if character = '\x7d' then layout.readClose .closeMapping
  else if character = ',' then layout.readComma
  else if character = '-' && startsWithGap rest then layout.readDash
  else if character = '?' && isSign then layout.readKeyMark
  else if character = ':' && isSign then layout.readColon
  else if character = '*' then layout.readName .alias
  else if character = '&' then layout.readName .anchor
  else if character = '!' then layout.readTag
  else if character = '|' && !layout.inFlow then layout.readLines false
  else if character = '>' && !layout.inFlow then layout.readLines true
  else if character = '\'' || character = '"' then layout.readQuoted character
  else if startsWord layout.inFlow (character :: rest) then layout.readPlain
  else .error .malformed

/-- The layout with the next token, or finished if there is none. -/
def readNext (layout : Layout) : Except Fault Layout := do
  let layout ← layout.skipGap.dropStale
  let layout := layout.unwind layout.cursor.column
  match layout.cursor.rest with
  | [] => return { ← layout.endAll with finished := true }
  | character :: rest => layout.readAt character rest

/-- The layout with all tokens, found in at most `limit` steps. -/
def readAll (layout : Layout) : Nat → Except Fault Layout
  | 0 => .error .malformed
  | limit + 1 => do
    let layout ← layout.readNext
    if layout.finished then return layout else layout.readAll limit

end Layout

/-- The tokens of a settings file. -/
def tokens (text : List Char) : Except Fault (List Token) := do
  if !text.all isAllowed then .error .malformed
  else
    let layout ← (Layout.start text).readAll (text.length + 1)
    return layout.tokens.reverse

end UnitSheet.Yaml
