/-
This file holds catalogues of units and their exchange rates.

A catalogue finds units by id and ids by alias; where two units share an alias, the one
listed last has it. Exchange rates do not change the units: the factors they give lie in a
table of their own and replace the factor of a currency when it is looked up. A set of rates
is accepted as a whole or not at all.
-/

import UnitSheet.Arithmetic.Floating
import UnitSheet.Decimal.Notation
import UnitSheet.Table
import UnitSheet.Units.Compound

namespace UnitSheet

/-- Units by id, ids by alias, and the factors that replace those of currencies. -/
structure Catalog where
  units : Table (NamedUnit Float)
  aliases : Table String
  rateFactors : Table Float

/-- Why exchange rates or a catalogue are refused. -/
inductive CatalogError where
  | duplicateId (id : String)
  | notACurrency (id : String)
  | rateNotPositive (id : String) (rate : Float)

/-- The words for a refusal. -/
def CatalogError.message : CatalogError → String
  | duplicateId id => "duplicate unit id: " ++ id
  | notACurrency id => "not a currency: " ++ id
  | rateNotPositive id rate =>
    "exchange rate for " ++ id ++ " must be positive, got " ++ Decimal.formatGeneral rate

namespace Catalog

/-- The family of the currencies, whose base is the euro. -/
def currencyFamily : String := "eur"

/-! ### Building -/

/-- The aliases of a list of units, each with the id it stands for. -/
def aliasEntries (units : List (NamedUnit Float)) : List (String × String) :=
  units.flatMap fun unit => unit.aliases.map fun name => (name, unit.id)

/-- The catalogue of a list of units with distinct ids. -/
def index (units : List (NamedUnit Float)) : Catalog :=
  ⟨⟨units.map fun unit => (unit.id, unit)⟩, Table.ofList (aliasEntries units), Table.empty⟩

/-- The first id that occurs a second time, given the ids met before. -/
def repeatedId? (met : List String) : List (NamedUnit Float) → Option String
  | [] => none
  | unit :: rest => if met.contains unit.id then some unit.id else repeatedId? (unit.id :: met) rest

/-- The catalogue of a list of units. -/
def ofUnits (units : List (NamedUnit Float)) : Except CatalogError Catalog :=
  match repeatedId? [] units with
  | some id => .error (.duplicateId id)
  | none => .ok (index units)

/-! ### Looking up -/

/-- The ids in the order of the catalogue. -/
def ids (catalog : Catalog) : List String :=
  catalog.units.keys

/-- Whether an id is in the catalogue. -/
def contains (catalog : Catalog) (id : String) : Bool :=
  catalog.units.contains id

/-- The unit of an id, at the exchange rate in force. -/
def get? (catalog : Catalog) (id : String) : Option (NamedUnit Float) :=
  (catalog.units.find? id).map fun unit =>
    match catalog.rateFactors.find? id with
    | some factor => { unit with factor := factor }
    | none => unit

/-- The id that an alias stands for. -/
def resolve? (catalog : Catalog) (name : String) : Option String :=
  catalog.aliases.find? name

/-- The unit that an alias stands for, at the exchange rate in force. -/
def lookup? (catalog : Catalog) (name : String) : Option (NamedUnit Float) :=
  (catalog.resolve? name).bind catalog.get?

/-- Whether an id is that of a currency. -/
def isCurrency (catalog : Catalog) (id : String) : Bool :=
  match catalog.units.find? id with
  | some unit => unit.family == currencyFamily
  | none => false

/-! ### Exchange rates -/

/-- The id that an exchange rate is for: what its key stands for, or the key itself. -/
def rateId (catalog : Catalog) (key : String) : String :=
  match catalog.resolve? key with
  | some id => if id.isEmpty then key else id
  | none => key

/-- The factor of a currency from its rate, in units of the currency for one euro. -/
def rateFactor (catalog : Catalog) (entry : String × Float) :
    Except CatalogError (String × Float) :=
  let id := catalog.rateId entry.1
  if !catalog.isCurrency id then .error (.notACurrency id)
  else if entry.2 ≤ 0 then .error (.rateNotPositive id entry.2)
  else .ok (id, 1 / entry.2)

/-- The catalogue with exchange rates set, if every one of them is acceptable. -/
def setRates (catalog : Catalog) (rates : List (String × Float)) :
    Except CatalogError Catalog := do
  let factors ← rates.mapM catalog.rateFactor
  return { catalog with rateFactors := catalog.rateFactors.putAll factors }

/-- The catalogue with its own factors for all currencies. -/
def resetRates (catalog : Catalog) : Catalog :=
  { catalog with rateFactors := Table.empty }

end Catalog

end UnitSheet
