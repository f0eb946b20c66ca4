/-
This file reads settings files.

A file is cut into tokens, the tokens are read as a tree, and the tree is turned into the
value it stands for: words become numbers and the like, and mappings get entries with distinct
keys. A mapping may bring in the entries of others, which its own entries override.
-/

import UnitSheet.Yaml.Layout
import UnitSheet.Yaml.Node
import UnitSheet.Yaml.Value

namespace UnitSheet.Yaml

/-! ### Kinds -/

/-- The kind of a text: that of its tag, or else the one that its words show. A text in quotes is
a text. -/
def scalarKind (tag : Option String) (plain : Bool) (text : RawText) : Kind :=
  match tag with
  | some name => if name = openTag then Kind.ofWord text.shown else Kind.ofTag name
  | none => if plain then Kind.ofWord text.shown else .text

/-- The kind that a tag gives, or else another. -/
def tagKind (kind : Kind) (tag : Option String) : Kind :=
  match tag with
  | some name => if name = openTag then kind else Kind.ofTag name
  | none => kind

/-- The kind of the value of a tree. -/
def Node.kind : Node → Kind
  | .scalar tag plain text => scalarKind tag plain text
  | .list tag _ => tagKind .list tag
  | .mapping tag _ => tagKind .mapping tag
  | .around _ => .unknown

mutual

/-- The text of a tree: that of a text, or that under the key that stands for itself. -/
def Node.text? : Node → Option RawText
  | .scalar _ _ text => some text
  | .mapping _ entries => Node.textInEntries? entries
  | .list _ _ | .around _ => none

/-- The text under the key that stands for itself. -/
def Node.textInEntries? : List (Node × Node) → Option RawText
  | [] => none
  | (key, value) :: rest => if key.kind = .self then value.text? else Node.textInEntries? rest

end

/-! ### Values -/

/-- The entries of a mapping with distinct keys, from entries put in order. -/
def mappingOf (entries : List (Datum × Datum)) : List (Datum × Datum) :=
  entries.foldl (fun known (key, value) => Datum.putEntry key value known) []

mutual

/-- The value that a tree stands for. -/
def Node.datum : Node → Except Fault Datum
  | .scalar tag plain text => (scalarKind tag plain text).read text
  | .list tag items =>
    match tagKind .list tag with
    | .list => do return .sequence (← Node.data items)
    | .pairs => do return .sequence (← Node.pairData items)
    | _ => .error .malformed
  | .mapping tag entries =>
    match tagKind .mapping tag with
    | .mapping => do return .mapping (mappingOf (← Node.entryData entries))
    | .set => do return .sequence ((mappingOf (← Node.entryData entries)).map Prod.fst)
    | kind => do kind.read (← orMalformed (Node.textInEntries? entries))
  | .around _ => .error .malformed

/-- The values that several trees stand for. -/
def Node.data : List Node → Except Fault (List Datum)
  | [] => .ok []
  | node :: rest => do return (← node.datum) :: (← Node.data rest)

/-- The pairs that mappings of one entry stand for. -/
def Node.pairData : List Node → Except Fault (List Datum)
  | [] => .ok []
  | .mapping _ [(key, value)] :: rest => do
    let pair := [← key.datum, ← value.datum]
    return .sequence pair :: (← Node.pairData rest)
  | _ => .error .malformed

/-- The entries of a mapping: first those that it brings in from others, then its own. -/
def Node.entryData (entries : List (Node × Node)) : Except Fault (List (Datum × Datum)) := do
  return (← Node.broughtData entries) ++ (← Node.ownData entries)

/-- The entries that a mapping brings in from others. -/
def Node.broughtData : List (Node × Node) → Except Fault (List (Datum × Datum))
  | [] => .ok []
  | (key, value) :: rest => do
    if key.kind = .merge then return (← value.brought) ++ (← Node.broughtData rest)
    else Node.broughtData rest

/-- The entries of a mapping that are its own. -/
def Node.ownData : List (Node × Node) → Except Fault (List (Datum × Datum))
  | [] => .ok []
  | (key, value) :: rest =>
    match key.kind with
    | .merge => Node.ownData rest
    | .self => do
      let text ← orMalformed key.text?
      return (.text text, ← value.datum) :: (← Node.ownData rest)
    | _ => do
      let datum ← key.datum
      if datum.isKey then return (datum, ← value.datum) :: (← Node.ownData rest)
      else .error .malformed

/-- The entries that a tree brings into a mapping: those of one mapping, or of several, of which
the first overrides the others. -/
def Node.brought : Node → Except Fault (List (Datum × Datum))
  | .mapping _ entries => Node.entryData entries
  | .list _ items => Node.broughtByAll items
  | .scalar _ _ _ | .around _ => .error .malformed

/-- The entries that several mappings bring into another, those of the last first. -/
def Node.broughtByAll : List Node → Except Fault (List (Datum × Datum))
  | [] => .ok []
  | .mapping _ entries :: rest => do
    return (← Node.broughtByAll rest) ++ (← Node.entryData entries)
  | _ => .error .malformed

end

/-- The value that a file holds; an empty file holds the null value. -/
def read (text : String) : Except Fault Datum := do
  let node ← orMalformed (Node.ofTokens (← tokens text.toList))
  node.datum

end UnitSheet.Yaml
