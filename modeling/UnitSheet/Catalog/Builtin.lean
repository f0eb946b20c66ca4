/-
This file lists the units that every worksheet knows.

Each family has a base, whose factor is one; the factor of another unit is what one of it is
worth in the base. A symbol need not be among the aliases: some symbols cannot be typed as
a name.
-/

import UnitSheet.Arithmetic.Floating
import UnitSheet.Catalog.Basic

namespace UnitSheet.Catalog

/-- A unit without a shift. -/
def scaled (family id symbol : String) (aliases : List String) (factor : Float) :
    NamedUnit Float :=
  ⟨id, symbol, aliases, family, factor, 0⟩

/-- A unit of temperature. -/
def shifted (id symbol : String) (aliases : List String) (factor shift : Float) :
    NamedUnit Float :=
  ⟨id, symbol, aliases, "celsius", factor, shift⟩

/-- The unit in which the trigonometric functions take angles. -/
def radians : NamedUnit Float :=
  scaled "radians" "radians" "rad" ["rad", "radians"] 1

/-- The three hundred and sixtieth part of a full turn. -/
def degrees : NamedUnit Float :=
  scaled "radians" "degrees" "deg" ["deg", "degrees"] (Floating.pi / 180)

/-- Units of length: the metric ones, the imperial ones and those of astronomy. -/
def lengthUnits : List (NamedUnit Float) :=
  [scaled "meter" "meter" "m" ["m", "meter", "metre"] 1,
   scaled "meter" "decimeter" "dm" ["dm", "decimetre", "decimeter"] 0.1,
   scaled "meter" "centimeter" "cm" ["cm", "centimetre", "centimeter"] 0.01,
   scaled "meter" "millimeter" "mm" ["mm", "millimetre", "millimeter"] 0.001,
   scaled "meter" "micrometer" "μm" ["μm", "micrometre", "micrometer"] 1e-06,
   scaled "meter" "nanometer" "nm" ["nm", "nanometre", "nanometer"] 1e-09,
   scaled "meter" "picometer" "pm" ["pm", "picometre", "picometer"] 1e-12,
   scaled "meter" "femtometer" "fm" ["fm", "femtometre", "femtometer"] 1e-15,
   scaled "meter" "decameter" "dam" ["dam", "decametre", "decameter"] 10,
   scaled "meter" "hectometer" "hm" ["hm", "hectometre", "hectometer"] 100,
   scaled "meter" "kilometer" "km" ["km", "kilometre", "kilometer"] 1000,
   scaled "meter" "megameter" "Mm" ["Mm", "megametre", "megameter"] 1000000,
   scaled "meter" "gigameter" "Gm" ["Gm", "gigametre", "gigameter"] 1000000000,
   scaled "meter" "inch" "in" ["in", "inch", "inches"] 0.0254,
   scaled "meter" "foot" "ft" ["ft", "foot", "feet"] 0.3048,
   scaled "meter" "yard" "yd" ["yd", "yard", "yards"] 0.9144,
   scaled "meter" "mile" "mi" ["mi", "mile", "miles"] 1609.344,
   scaled "meter" "nautical_mile" "nmi" ["nmi", "nautical_mile"] 1852,
   scaled "meter" "lunar_distance" "ld" ["ld", "lunar_distance", "lunar_distances"] 384402000,
   scaled "meter" "astronomical_unit" "au"
     ["au", "astronomical_unit", "astronomical_units"] 149597870700,
   scaled "meter" "light_year" "ly" ["ly", "light_year", "light_years"] 9460730472580800]

/-- Units of mass: the metric ones and the imperial ones. -/
def massUnits : List (NamedUnit Float) :=
  [scaled "kilogram" "kilogram" "kg" ["kg", "kilogram"] 1,
   scaled "kilogram" "hectogram" "hg" ["hg", "hectogram"] 0.1,
   scaled "kilogram" "decagram" "dag" ["dag", "decagram"] 0.01,
   scaled "kilogram" "gram" "g" ["g", "gram"] 0.001,
   scaled "kilogram" "decigram" "dg" ["dg", "decigram"] 0.0001,
   scaled "kilogram" "centigram" "cg" ["cg", "centigram"] 1e-05,
   scaled "kilogram" "milligram" "mg" ["mg", "milligram"] 1e-06,
   scaled "kilogram" "microgram" "µg" ["µg", "microgram"] 1e-09,
   scaled "kilogram" "tonne" "ton" ["MG", "megagram", "tonne", "ton"] 1000,
   scaled "kilogram" "pound" "lbs" ["lbs", "pound", "pounds"] 0.45359237,
   scaled "kilogram" "ounce" "oz" ["oz", "ounce", "ounces"] 0.028349523125]

/-- Units of time. A month has thirty days and a year the mean length of the calendar. -/
def timeUnits : List (NamedUnit Float) :=
  [scaled "second" "second" "s" ["s", "second", "seconds"] 1,
   scaled "second" "millisecond" "ms" ["ms", "millisecond", "milliseconds"] 0.001,
   scaled "second" "minute" "min" ["min", "minute", "minutes"] 60,
   scaled "second" "hour" "hours" ["hour", "hours"] 3600,
   scaled "second" "day" "days" ["day", "days"] 86400,
   scaled "second" "month" "month" ["month", "months"] 2592000,
   scaled "second" "year" "year" ["year", "years"] 31556952]

/-- Scales of temperature, which differ in their zero as well as in their step. -/
def temperatureUnits : List (NamedUnit Float) :=
  [shifted "celsius" "°C" ["C", "°C", "celsius"] 1 0,
   shifted "fahrenheit" "°F" ["F", "°F", "fahrenheit"] (5 / 9) (-32),
   shifted "kelvin" "K" ["K", "kelvin"] 1 (-273.15)]

/-- The unit of electric current. -/
def currentUnits : List (NamedUnit Float) :=
  [scaled "ampere" "ampere" "A" ["A", "ampere"] 1]

/-- Currencies, in euros for one of each. -/
def currencyUnits : List (NamedUnit Float) :=
  [scaled currencyFamily "eur" "€" ["€", "eur", "EUR"] 1,
   scaled currencyFamily "usd" "$" ["$", "usd", "USD"] 0.84,
   scaled currencyFamily "gbp" "£" ["£", "gbp", "GBP"] 1.17,
   scaled currencyFamily "cny" "¥" ["cny", "CNY"] 0.13,
   scaled currencyFamily "cad" "CAD" ["cad", "CAD"] 0.67]

/-- Units of angle. -/
def angleUnits : List (NamedUnit Float) :=
  [radians,
   degrees]

/-- Units of pressure. -/
def pressureUnits : List (NamedUnit Float) :=
  [scaled "pascal" "pascal" "Pa" ["Pa", "pascal"] 1,
   scaled "pascal" "bar" "bar" ["bar"] 100000,
   scaled "pascal" "atmosphere" "atm" ["atm", "atmosphere"] 101325,
   scaled "pascal" "millimeter_of_mercury" "mmHg"
     ["mmHg", "millimeter_of_mercury"] (101325 / 760)]

/-- Units of data, with decimal and with binary multiples. -/
def dataUnits : List (NamedUnit Float) :=
  [scaled "bit" "bit" "bit" ["b", "bit"] 1,
   scaled "bit" "byte" "B" ["B", "byte"] 8,
   scaled "bit" "kilobit" "kbit" ["kbit", "kb", "kilobit"] 1000,
   scaled "bit" "kibibit" "Kibit" ["Kib", "Kibit", "kibibit"] 1024,
   scaled "bit" "kilobyte" "kB" ["kB", "kilobyte"] 8000,
   scaled "bit" "kibibyte" "KiB" ["KiB", "kibibyte"] 8192,
   scaled "bit" "megabit" "Mbit" ["Mbit", "megabit"] 1000000,
   scaled "bit" "mebibit" "Mibit" ["Mibit", "mebibit"] 1048576,
   scaled "bit" "megabyte" "MB" ["MB", "megabyte"] 8000000,
   scaled "bit" "mebibyte" "MiB" ["MiB", "mebibyte"] 8388608,
   scaled "bit" "gigabit" "Gbit" ["Gbit", "gigabit"] 1000000000,
   scaled "bit" "gibibit" "Gibit" ["Gibit", "gibibit"] 1073741824,
   scaled "bit" "gigabyte" "GB" ["GB", "gigabyte"] 8000000000,
   scaled "bit" "gibibyte" "GiB" ["GiB", "gibibyte"] 8589934592,
   scaled "bit" "terabit" "Tbit" ["Tbit", "terabit"] 1000000000000,
   scaled "bit" "tebibit" "Tibit" ["Tibit", "tebibit"] 1099511627776,
   scaled "bit" "terabyte" "TB" ["TB", "terabyte"] 8000000000000,
   scaled "bit" "tebibyte" "TiB" ["TiB", "tebibyte"] 8796093022208,
   scaled "bit" "petabit" "Pbit" ["Pbit", "petabit"] 1000000000000000,
   scaled "bit" "pebibit" "Pibit" ["Pibit", "pebibit"] 1125899906842624,
   scaled "bit" "petabyte" "PB" ["PB", "petabyte"] 8000000000000000,
   scaled "bit" "pebibyte" "PiB" ["PiB", "pebibyte"] 9007199254740992]

/-- All built-in units. -/
def builtinUnits : List (NamedUnit Float) :=
  lengthUnits ++ massUnits ++ timeUnits ++ temperatureUnits ++ currentUnits ++ currencyUnits ++
    angleUnits ++ pressureUnits ++ dataUnits

/-- The catalogue of the built-in units, before any exchange rate is set. -/
def builtin : Catalog :=
  index builtinUnits

end UnitSheet.Catalog
