/-
This file reads tokens as the tree of values that a settings file holds.

A file holds one document, and the document one value. A value may be given a name, under
which it can be repeated further on, and a tag. A value that is missing is an empty text.
A list or mapping that repeats itself somewhere inside is followed twice and then taken as
empty, which is further than settings are looked at.
-/

import UnitSheet.Table
import UnitSheet.Yaml.Kind
import UnitSheet.Yaml.Token

namespace UnitSheet.Yaml

/-- A value of a settings file as it is written. -/
inductive Node where
  | scalar (tag : Option String) (plain : Bool) (text : RawText)
  | list (tag : Option String) (items : List Node)
  | mapping (tag : Option String) (entries : List (Node × Node))
  /-- The list or mapping around this place that has a name. -/
  | around (name : String)

namespace Node

/-- A value that is missing. -/
def missing : Node :=
  .scalar none true ""

/-! ### Values that repeat themselves -/

mutual

/-- A value with another in the place of what repeats the one of a name. -/
def replace (node : Node) (name : String) (value : Node) : Node :=
  match node with
  | .scalar tag plain text => .scalar tag plain text
  | .list tag items => .list tag (replaceInItems items name value)
  | .mapping tag entries => .mapping tag (replaceInEntries entries name value)
  | .around other => if other = name then value else .around other

/-- Items with a value in the place of what repeats the one of a name. -/
def replaceInItems (items : List Node) (name : String) (value : Node) : List Node :=
  match items with
  | [] => []
  | item :: rest => item.replace name value :: replaceInItems rest name value

/-- Entries with a value in the place of what repeats the one of a name. -/
def replaceInEntries (entries : List (Node × Node)) (name : String) (value : Node) :
    List (Node × Node) :=
  match entries with
  | [] => []
  | (key, entry) :: rest =>
    (key.replace name value, entry.replace name value) :: replaceInEntries rest name value

end

/-- A list or mapping without what it holds. -/
def emptied : Node → Node
  | .list tag _ => .list tag []
  | .mapping tag _ => .mapping tag []
  | node => node

/-! ### Sources -/

/-- The tokens that are left, the values that have names, and the meanings of the short forms of
tags. -/
structure Source where
  tokens : List Token
  named : Table Node
  forms : Table String

namespace Source

/-- The source after the next token. -/
def next (source : Source) : Source :=
  { source with tokens := source.tokens.drop 1 }

/-- Whether the next token is one of several. -/
def startsWith (source : Source) (tokens : List Token) : Bool :=
  source.tokens.head?.any (tokens.contains ·)

/-- The source inside of a list or mapping. -/
def enter (source : Source) (anchor : Option String) : Source :=
  match anchor with
  | some name => { source with named := source.named.put name (.around name) }
  | none => source

/-- A value with its name, and the source after it. -/
def leave (source : Source) (anchor : Option String) (node : Node) : Node × Source :=
  match anchor with
  | some name =>
    let inner := node.replace name node.emptied
    let named := source.named.entries.map fun (other, value) => (other, value.replace name inner)
    let whole := node.replace name inner
    (whole, { source with named := (Table.ofList named).put name whole })
  | none => (node, source)

end Source

/-- What stands before a value: its name and its tag, in either order. -/
structure Properties where
  anchor : Option String
  tag : Option String

/-- Whether anything stands before a value. -/
def Properties.isGiven (properties : Properties) : Bool :=
  properties.anchor.isSome || properties.tag.isSome

/-- A tag with the meaning of its short form. -/
def wholeTag? (source : Source) (form : Option String) (name : String) : Option String :=
  match form with
  | some form => (source.forms.find? form).map (· ++ name)
  | none => some name

/-- What stands before a value, and the source after it. -/
def readProperties (source : Source) : Option (Properties × Source) :=
  let tagged (anchor : Option String) (form : Option String) (name : String) (rest : List Token) :
      Option (Properties × Source) :=
    (wholeTag? source form name).map fun tag =>
      (⟨anchor, some tag⟩, { source with tokens := rest })
  match source.tokens with
  | .anchor anchor :: .tag form name :: rest => tagged (some anchor) form name rest
  | .tag form name :: .anchor anchor :: rest => tagged (some anchor) form name rest
  | .tag form name :: rest => tagged none form name rest
  | .anchor anchor :: rest => some (⟨some anchor, none⟩, { source with tokens := rest })
  | _ => some (⟨none, none⟩, source)

/-! ### Values -/

/-- Where a value stands: between brackets, in a block, or in a block where a list may stand in
the column of its key. -/
inductive Position where
  | flow
  | block
  | underKey
  deriving DecidableEq

mutual

/-- A value. -/
def read (position : Position) (source : Source) : Nat → Option (Node × Source)
  | 0 => none
  | limit + 1 =>
    match source.tokens with
    | .alias name :: _ => (source.named.find? name).map fun node => (node, source.next)
    | _ =>
      (readProperties source).bind fun (properties, start) =>
        let isRepeated := properties.anchor.any source.named.contains
        if isRepeated then none else readContent position properties start limit

/-- A value after its properties. -/
def readContent (position : Position) (properties : Properties) (source : Source) :
    Nat → Option (Node × Source)
  | 0 => none
  | limit + 1 =>
    let tag := properties.tag
    let listed (result : Option (List Node × Source)) : Option (Node × Source) :=
      result.map fun (items, after) => after.leave properties.anchor (.list tag items)
    let mapped (result : Option (List (Node × Node) × Source)) : Option (Node × Source) :=
      result.map fun (entries, after) => after.leave properties.anchor (.mapping tag entries)
    let inside := source.enter properties.anchor
    match source.tokens with
    | .scalar plain text :: _ =>
      some (source.next.leave properties.anchor (.scalar tag plain text))
    | .openList :: _ => listed (readListed true inside.next limit)
    | .openMapping :: _ => mapped (readMapped true inside.next limit)
    | first :: _ =>
      if first = .dash && position = .underKey then listed (readItems true inside limit)
      else if first = .itemsStart && position ≠ .flow then
        listed (readItems false inside.next limit)
      else if first = .entriesStart && position ≠ .flow then
        mapped (readEntries inside.next limit)
      else if properties.isGiven then
        some (source.leave properties.anchor (.scalar tag true ""))
      else none
    | [] =>
      if properties.isGiven then
        some (source.leave properties.anchor (.scalar tag true ""))
      else none

/-- A value that may be missing in front of some tokens. -/
def readUnless (position : Position) (ends : List Token) (source : Source) :
    Nat → Option (Node × Source)
  | 0 => none
  | limit + 1 =>
    if source.startsWith ends then some (missing, source) else read position source limit

/-- The items of a list in a block, and the source after the list. A list in the column of its key
ends where no dash stands. -/
def readItems (underKey : Bool) (source : Source) : Nat → Option (List Node × Source)
  | 0 => none
  | limit + 1 =>
    match source.tokens with
    | .dash :: _ => do
      let ends := if underKey then [.dash, .key, .colon, .blockEnd] else [.dash, .blockEnd]
      let (item, after) ← readUnless .block ends source.next limit
      let (items, after) ← readItems underKey after limit
      return (item :: items, after)
    | .blockEnd :: _ => some ([], if underKey then source else source.next)
    | _ => if underKey then some ([], source) else none

/-- The entries of a mapping in a block, and the source after the mapping. -/
def readEntries (source : Source) : Nat → Option (List (Node × Node) × Source)
  | 0 => none
  | limit + 1 =>
    match source.tokens with
    | .key :: _ => do
      let ends := [.key, .colon, .blockEnd]
      let (key, afterKey) ← readUnless .underKey ends source.next limit
      let (value, after) ←
        if afterKey.startsWith [.colon] then readUnless .underKey ends afterKey.next limit
        else some (missing, afterKey)
      let (entries, after) ← readEntries after limit
      return ((key, value) :: entries, after)
    | .blockEnd :: _ => some ([], source.next)
    | _ => none

/-- A key and a value between brackets; the value may be missing. -/
def readPair (close : Token) (source : Source) : Nat → Option ((Node × Node) × Source)
  | 0 => none
  | limit + 1 => do
    let (key, afterKey) ← readUnless .flow [.colon, .comma, close] source limit
    let (value, after) ←
      if afterKey.startsWith [.colon] then readUnless .flow [.comma, close] afterKey.next limit
      else some (missing, afterKey)
    return ((key, value), after)

/-- The items of a list between brackets, and the source after it. An item with a key is a mapping
of its own. Every item but the first stands after a comma, and a comma may end the list. -/
def readListed (first : Bool) (source : Source) : Nat → Option (List Node × Source)
  | 0 => none
  | limit + 1 =>
    if source.startsWith [.closeList] then some ([], source.next)
    else if !first && !source.startsWith [.comma] then none
    else
      let start := if first then source else source.next
      match start.tokens with
      | .closeList :: _ => some ([], start.next)
      | .key :: _ => do
        let (entry, after) ← readPair .closeList start.next limit
        let (items, after) ← readListed false after limit
        return (.mapping none [entry] :: items, after)
      | _ => do
        let (item, after) ← read .flow start limit
        let (items, after) ← readListed false after limit
        return (item :: items, after)

/-- The entries of a mapping between brackets, and the source after it. What is not marked as a key
is a key without a value. -/
def readMapped (first : Bool) (source : Source) : Nat → Option (List (Node × Node) × Source)
  | 0 => none
  | limit + 1 =>
    if source.startsWith [.closeMapping] then some ([], source.next)
    else if !first && !source.startsWith [.comma] then none
    else
      let start := if first then source else source.next
      match start.tokens with
      | .closeMapping :: _ => some ([], start.next)
      | .key :: _ => do
        let (entry, after) ← readPair .closeMapping start.next limit
        let (entries, after) ← readMapped false after limit
        return (entry :: entries, after)
      | _ => do
        let (key, after) ← read .flow start limit
        let (entries, after) ← readMapped false after limit
        return ((key, missing) :: entries, after)

end

/-! ### Documents -/

/-- The short forms of tags that have a meaning in every document. -/
def commonForms : Table String :=
  Table.ofList [(openTag, openTag), ("!!", commonPrefix)]

/-- The short forms that lines for the reader of the file give, and the tokens after these lines.
One of the lines at most gives the version, and one the meaning of a form. -/
def readDirectives (versionGiven : Bool) (forms : Table String) :
    List Token → Option (Table String × List Token)
  | .directive .version :: rest => if versionGiven then none else readDirectives true forms rest
  | .directive (.shortForm form meaning) :: rest =>
    if forms.contains form then none else readDirectives versionGiven (forms.put form meaning) rest
  | .directive .other :: rest => readDirectives versionGiven forms rest
  | tokens => some (forms, tokens)

/-- The value of a document, and the tokens after it. -/
def readDocument (forms : Table String) (tokens : List Token) : Option (Node × List Token) :=
  (read .block ⟨tokens, Table.empty, forms⟩ (4 * tokens.length + 4)).map fun (node, after) =>
    (node, after.tokens)

/-- The value of a document that is marked as one, and the tokens after it. -/
def readMarked (tokens : List Token) : Option (Node × List Token) := do
  let (forms, afterDirectives) ← readDirectives false Table.empty tokens
  match afterDirectives with
  | .documentStart :: rest =>
    match rest with
    | [] | .directive _ :: _ | .documentStart :: _ | .documentEnd :: _ => some (missing, rest)
    | _ => readDocument (commonForms.putAll forms.entries) rest
  | _ => none

/-- The value of the one document that tokens hold, which may be missing. Nothing but the ends of
documents follows it. -/
def ofTokens (tokens : List Token) : Option Node := do
  let (node, rest) ← match tokens with
    | [] => some (missing, [])
    | .directive _ :: _ | .documentStart :: _ => readMarked tokens
    | _ => readDocument commonForms tokens
  if rest.all (· == .documentEnd) then some node else none

end Node

end UnitSheet.Yaml
