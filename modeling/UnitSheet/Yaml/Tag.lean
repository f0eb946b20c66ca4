/-
This file reads tags, which say of what kind a value is, and lines for the reader of the file.

A tag begins with an exclamation mark. It is written in full between angle brackets, or with a
short form in front, whose meaning such a line may give. In a tag a character may be written
by the bytes that encode it.
-/

import UnitSheet.Yaml.Cursor
import UnitSheet.Yaml.Kind
import UnitSheet.Yaml.Token

namespace UnitSheet.Yaml

/-! ### Tags -/

/-- Characters of a tag after its short form. -/
def isTagCharacter (character : Char) : Bool :=
  isNameCharacter character || ";/?:@&=+$,.!~*'()[]%".contains character

/-- The bytes of a tag. A percent sign and two hexadecimal digits stand for one byte. -/
def tagBytes? : List Char → Option (List UInt8)
  | [] => some []
  | '%' :: high :: low :: rest => do
    let byte := 16 * (← digitValue? high) + (← digitValue? low)
    return byte.toUInt8 :: (← tagBytes? rest)
  | character :: rest => do
    if character = '%' then none else return character.toNat.toUInt8 :: (← tagBytes? rest)

/-- The rest of a tag, and the cursor after it. -/
def takeTagName (cursor : Cursor) : Except Fault (String × Cursor) :=
  let (written, after) := cursor.span isTagCharacter
  match (tagBytes? written).bind fun bytes => String.fromUTF8? ⟨bytes.toArray⟩ with
  | some name => if written.isEmpty then .error .malformed else .ok (name, after)
  | none => .error .malformed

/-- A short form between two exclamation marks, and the cursor after it. -/
def takeForm (cursor : Cursor) : Except Fault (String × Cursor) :=
  let (name, after) := cursor.next.span isNameCharacter
  if after.rest.head? == some '!' then .ok ("!" ++ String.ofList name ++ "!", after.next)
  else .error .malformed

/-- A tag, and the cursor after it. -/
def takeTag (cursor : Cursor) : Except Fault (Token × Cursor) := do
  let rest := cursor.rest.drop 1
  let word := rest.takeWhile fun character => character != ' ' && !isBreak character
  let (token, after) ←
    if rest.head? == some '<' then do
      let (name, after) ← takeTagName (cursor.advance 2)
      if after.rest.head? == some '>' then .ok (Token.tag none name, after.next)
      else .error .malformed
    else if startsWithGap rest then .ok (Token.tag none openTag, cursor.next)
    else do
      let (form, afterForm) ←
        if word.contains '!' then takeForm cursor else .ok (openTag, cursor.next)
      let (name, after) ← takeTagName afterForm
      .ok (Token.tag (some form) name, after)
  if startsWithSpace after.rest then return (token, after) else .error .malformed

/-! ### Lines for the reader of the file -/

/-- The rest of a line that gives the version, which has to be the first. -/
def takeVersion (cursor : Cursor) : Except Fault (Directive × Cursor) :=
  let (major, afterMajor) := (cursor.skip (· == ' ')).span Char.isDigit
  let (minor, after) := afterMajor.next.span Char.isDigit
  let isFirst := (major.dropWhile (· == '0')) == ['1']
  if isFirst && afterMajor.rest.head? == some '.' && !minor.isEmpty then .ok (.version, after)
  else .error .malformed

/-- The rest of a line that gives the meaning of a short form. -/
def takeShortForm (cursor : Cursor) : Except Fault (Directive × Cursor) := do
  let start := cursor.skip (· == ' ')
  if start.rest.head? != some '!' then .error .malformed
  else
    let (form, afterForm) ←
      if start.rest.drop 1 |>.head? |>.any (· == ' ') then .ok (openTag, start.next)
      else takeForm start
    if afterForm.rest.head? != some ' ' then .error .malformed
    else
      let (meaning, after) ← takeTagName (afterForm.skip (· == ' '))
      return (.shortForm form meaning, after)

/-- A line for the reader of the file, and the cursor at the next line. A comment may end it. -/
def takeDirective (cursor : Cursor) : Except Fault (Directive × Cursor) := do
  let (name, afterName) := cursor.next.span isNameCharacter
  if name.isEmpty || !startsWithSpace afterName.rest then .error .malformed
  else
    let (directive, after) ← match String.ofList name with
      | "YAML" => takeVersion afterName
      | "TAG" => takeShortForm afterName
      | _ => .ok (Directive.other, afterName.skip (!isBreak ·))
    let afterLine := (after.skip (· == ' ')).skipComment
    if startsWithSpace after.rest && startsWithBreak afterLine.rest then
      return (directive, afterLine.next)
    else .error .malformed

end UnitSheet.Yaml
