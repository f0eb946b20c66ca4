/-
This file reads the arguments of the command line.

There is a command and a file, which may be left out, and there are options, which may stand
anywhere but between the two: the first arguments that are not options, up to the next
option, are the command and the file. The name of a long option may be cut short where it
stays clear, and its value follows it or is joined to it by an equals sign. After two dashes
nothing is an option.
-/

import UnitSheet.Text.Character
import UnitSheet.Text.Pieces

namespace UnitSheet.Command

/-- What is done with the document. -/
inductive Action where
  | execute
  | colorize
  deriving DecidableEq

/-- The action of a name. -/
def Action.ofName? : String → Option Action
  | "execute" => some execute
  | "colorize" => some colorize
  | _ => none

/-- What the command line asks for. Paths are in their plain form. -/
structure Arguments where
  action : Action
  file : Option String
  config : Option String
  rates : Option String
  verbose : Bool

/-- Why a command line is not carried out: it asks for help, or it is not a command line. -/
inductive UsageError where
  | help
  | wrong
  deriving DecidableEq

/-! ### Words -/

/-- The options. -/
inductive Switch where
  | help
  | config
  | rates
  | verbose
  deriving DecidableEq

/-- A word of the command line: an option, perhaps with the value joined to it, any other
argument, or the two dashes after which nothing is an option. -/
inductive Word where
  | switch (switch : Switch) (joined : Option String)
  | unknownSwitch
  /-- An option of one letter to which a value or a dash is joined. -/
  | brokenSwitch
  | argument (text : String)
  | dashes

namespace Switch

/-- The long names of the options. -/
def longNames : List (String × Switch) :=
  [("--help", help), ("--config", config), ("--rates", rates), ("--verbose", verbose)]

/-- The options whose long names begin with a text. -/
def matching (beginning : String) : List Switch :=
  (longNames.filter fun (name, _) => name.startsWith beginning).map Prod.snd

end Switch

/-- The parts of a text before and after its first equals sign, if it has one. -/
def splitEquals (text : List Char) : List Char × Option String :=
  let before := text.takeWhile (· != '=')
  match text.drop before.length with
  | [] => (before, none)
  | _ :: value => (before, some (String.ofList value))

/-- A text of one digit at least, and of digits only. -/
def isDigits (text : List Char) : Bool :=
  !text.isEmpty && text.all fun character => (Text.decimalDigit? character).isSome

/-- Whether a text is a number below zero, which is no option. A line feed may end it. -/
def isNegativeNumber (text : List Char) : Bool :=
  match text with
  | '-' :: rest =>
    let number := if rest.getLast? == some '\n' then rest.dropLast else rest
    let whole := number.takeWhile (· != '.')
    if whole.length = number.length then isDigits number
    else (whole.isEmpty || isDigits whole) && isDigits (number.drop (whole.length + 1))
  | _ => false

/-- What a text that is none of the options is. -/
def otherWord (text : String) : Word :=
  if isNegativeNumber text.toList || text.contains ' ' then .argument text else .unknownSwitch

/-- The word of a text that begins with two dashes. -/
def longWord (text : String) : Except UsageError Word :=
  let (name, joined) := splitEquals text.toList
  match Switch.longNames.lookup (String.ofList name) with
  | some switch => .ok (.switch switch joined)
  | none =>
    match Switch.matching (String.ofList name) with
    | [] => .ok (otherWord text)
    | [switch] => .ok (.switch switch joined)
    | _ => .error .wrong

/-- The option of a letter. -/
def Switch.ofLetter? : Char → Option Switch
  | 'v' => some verbose
  | 'h' => some help
  | _ => none

/-- The words of letters that follow an option of one letter: options of one letter, up to the
first letter that is none; what follows it is no option. -/
def furtherSwitches : List Char → List Word
  | [] => []
  | letter :: rest =>
    match Switch.ofLetter? letter with
    | some switch => .switch switch none :: furtherSwitches rest
    | none => if letter == '=' || letter == '-' then [.brokenSwitch] else [.unknownSwitch]

/-- Whether a word is an option of one letter to which a value or a dash is joined. -/
def Word.isBroken : Word → Bool
  | brokenSwitch => true
  | _ => false

/-- The words of a text that begins with one dash and a letter. Other options may follow an option
of one letter, but no value. -/
def shortWord (text : String) (letter : Char) (letters : List Char) : List Word :=
  match Switch.ofLetter? letter with
  | none => [otherWord text]
  | some switch =>
    let others := furtherSwitches letters
    if others.any Word.isBroken then [.brokenSwitch] else .switch switch none :: others

/-- The words of the command line. -/
def words : List String → Except UsageError (List Word)
  | [] => .ok []
  | "--" :: rest => .ok (.dashes :: rest.map .argument)
  | text :: rest => do
    let first ← match text.toList with
      | '-' :: '-' :: _ => do pure [← longWord text]
      | '-' :: letter :: letters => pure (shortWord text letter letters)
      | _ => pure [.argument text]
    return first ++ (← words rest)

/-! ### Arguments -/

/-- How much of the command and the file has been read. -/
inductive Positional where
  | awaited
  | reading
  | complete
  deriving DecidableEq

/-- What has been read of a command line. -/
structure Draft where
  action : Option Action
  file : Option String
  config : Option String
  rates : Option String
  verbose : Bool
  positional : Positional
  surplus : Bool

namespace Draft

/-- Nothing has been read. -/
def empty : Draft := ⟨none, none, none, none, false, .awaited, false⟩

/-- One more argument that is not an option. Two dashes in the place of the file leave it out. -/
def add (draft : Draft) (text : String) : Except UsageError Draft :=
  match draft.positional, draft.file with
  | .awaited, _ =>
    match Action.ofName? text with
    | some action => .ok { draft with action := some action, positional := .reading }
    | none => .error .wrong
  | .reading, none =>
    if text = "--" then .ok { draft with positional := .complete }
    else .ok { draft with file := some (Text.plainPath text) }
  | _, _ => .ok { draft with surplus := true }

/-- An option ends the command and the file once they have begun. -/
def interrupt (draft : Draft) : Draft :=
  if draft.positional = .reading then { draft with positional := .complete } else draft

/-- One more option with its value. -/
def set (draft : Draft) (switch : Switch) (value : String) : Draft :=
  match switch with
  | .config => { draft with config := some (Text.plainPath value) }
  | .rates => { draft with rates := some (Text.plainPath value) }
  | .help | .verbose => draft

/-- The draft with the rest of the words. -/
def read (draft : Draft) : List Word → Except UsageError Draft
  | [] => .ok draft
  | .argument text :: rest => do (← draft.add text).read rest
  | .dashes :: rest =>
    read { draft with surplus := draft.surplus || draft.positional = .complete } rest
  | .unknownSwitch :: rest => read { draft.interrupt with surplus := true } rest
  | .brokenSwitch :: _ => .error .wrong
  | .switch .help none :: _ => .error .help
  | .switch .verbose none :: rest => read { draft.interrupt with verbose := true } rest
  | .switch .help (some _) :: _ | .switch .verbose (some _) :: _ => .error .wrong
  | .switch switch (some value) :: rest => (draft.interrupt.set switch value).read rest
  | .switch switch none :: .argument value :: rest => (draft.interrupt.set switch value).read rest
  | .switch _ none :: _ => .error .wrong

/-- The arguments of a command line that has been read to its end. -/
def finish (draft : Draft) : Except UsageError Arguments :=
  match draft.action, draft.surplus with
  | some action, false => .ok ⟨action, draft.file, draft.config, draft.rates, draft.verbose⟩
  | _, _ => .error .wrong

end Draft

/-- The arguments of a command line. -/
def Arguments.read (texts : List String) : Except UsageError Arguments := do
  (← Draft.empty.read (← words texts)).finish

end UnitSheet.Command
