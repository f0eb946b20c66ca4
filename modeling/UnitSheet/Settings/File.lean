/-
This file loads settings and exchange rates from files.

Settings come from the file that is named, or from the one that the surroundings name, or
else they are the standard ones. A file without a value stands for the standard settings, or
for no exchange rates.

Two pieces of this are not the business of a worksheet: which value the text of a file holds,
and which entries make up settings. They are left to `Readers`, and everything else is said for
any of them; `Readers.standard` are those that the program uses.
-/

import UnitSheet.Settings.Validation
import UnitSheet.Text.Pieces
import UnitSheet.Text.Quoted
import UnitSheet.Yaml.Document

namespace UnitSheet

/-! ### Files -/

/-- What is found at a path. -/
inductive FileEntry where
  | text (content : String)
  | directory
  | missing
  /-- The path goes on after a file. -/
  | belowFile
  /-- The path goes on through links without an end. -/
  | circular
  /-- The system does not follow the path, for a reason that it gives. -/
  | refused (reason : String)

/-- What is found at plain paths. -/
abbrev Files := String → FileEntry

/-- What there is at a path instead of a text. -/
inductive FileError where
  | missing (path : String)
  | belowFile (path : String)
  | directory (path : String)

/-- The words for it. -/
def FileError.message : FileError → String
  | missing path => "[Errno 2] No such file or directory: " ++ Text.quote path
  | belowFile path => "[Errno 20] Not a directory: " ++ Text.quote path
  | directory path => "[Errno 21] Is a directory: " ++ Text.quote path

/-- Why the text at a path cannot be read. -/
inductive AccessError where
  | file (error : FileError)
  | circular (path : String)
  | refused (reason path : String)
  /-- No path has a zero character in it, and the system is not even asked for one. -/
  | zeroCharacter

/-- The words for it. -/
def AccessError.message : AccessError → String
  | file error => error.message
  | circular path => "[Errno 40] Too many levels of symbolic links: " ++ Text.quote path
  | refused reason path => reason ++ ": " ++ Text.quote path
  | zeroCharacter => "embedded null byte"

/-- The text of a file with all line ends made line feeds. -/
def Files.read (files : Files) (path : String) : Except AccessError String :=
  if path.toList.contains '\x00' then .error .zeroCharacter
  else match files path with
    | .text content => .ok (String.ofList (Text.withLineFeeds content.toList))
    | .directory => .error (.file (.directory path))
    | .missing => .error (.file (.missing path))
    | .belowFile => .error (.file (.belowFile path))
    | .circular => .error (.circular path)
    | .refused reason => .error (.refused reason path)

/-! ### Readers -/

/-- What other packages do for the loading of files: one finds the value that the text of a file
holds, and one makes settings of the entries of a mapping. -/
structure Readers where
  value : String → Except Yaml.Fault Datum
  settings : List (Datum × Datum) → Except (List Complaint) Settings

/-- The readers of the program. -/
def Readers.standard : Readers :=
  ⟨Yaml.read, Settings.ofEntries⟩

/-! ### Settings -/

/-- Why settings cannot be loaded. -/
inductive SettingsError where
  | missing (path : String)
  | malformed (path : String)
  | notAMapping (path : String)
  | invalid (path : String) (complaints : List Complaint)
  /-- There is something at the path that cannot be read as a text. -/
  | file (error : FileError)
  /-- The system does not follow the path. -/
  | access (error : AccessError)
  /-- The file is well formed and holds a word without a value. -/
  | word (fault : Yaml.Fault)

/-- The words for settings that cannot be loaded; of complaints only their number is told. -/
def SettingsError.message : SettingsError → String
  | missing path => "config file not found: " ++ path
  | malformed path => path ++ ": invalid YAML"
  | notAMapping path => path ++ ": expected a mapping at top level"
  | invalid path complaints =>
    path ++ ": " ++ toString complaints.length ++ " validation error" ++
      (if complaints.length = 1 then "" else "s") ++ " for Settings"
  | file error => error.message
  | access error => error.message
  | word fault => fault.message

namespace Readers

/-- The settings that the text of a file stands for. -/
def settingsOfText (readers : Readers) (path text : String) : Except SettingsError Settings :=
  match readers.value text with
  | .error .malformed => .error (.malformed path)
  | .error fault => .error (.word fault)
  | .ok .null => .ok Settings.standard
  | .ok (.mapping entries) => (readers.settings entries).mapError (.invalid path)
  | .ok _ => .error (.notAMapping path)

/-- The settings of a file. A path is taken for missing if nothing is found there, and everything
else that stands in the way of a text is an error of its own. -/
def settingsOfFile (readers : Readers) (files : Files) (path : String) :
    Except SettingsError Settings :=
  match files.read path with
  | .ok text => readers.settingsOfText path text
  | .error (.file (.directory path)) => .error (.file (.directory path))
  | .error (.refused reason path) => .error (.access (.refused reason path))
  | .error _ => .error (.missing path)

/-- The settings of the file that is named, or else of the one that the surroundings name. An empty
name names no file. -/
def loadSettings (readers : Readers) (files : Files) (named surroundings : Option String) :
    Except SettingsError Settings :=
  match named.or surroundings with
  | none | some "" => .ok Settings.standard
  | some path => readers.settingsOfFile files (Text.plainPath path)

end Readers

/-- The settings of a file, or the standard ones, as the program loads them. -/
def Settings.load : Files → Option String → Option String → Except SettingsError Settings :=
  Readers.standard.loadSettings

/-! ### Exchange rates -/

/-- Why exchange rates cannot be loaded. -/
inductive RatesError where
  | file (error : FileError)
  /-- The path cannot be followed. -/
  | access (error : AccessError)
  | malformed (path : String)
  /-- The file is well formed and holds a word without a value. -/
  | word (fault : Yaml.Fault)
  | notAMapping (path : String)
  | notANumber (path key : String)
  | tooLarge
  /-- A key is an integer of too many digits. -/
  | longKey

/-- The words for exchange rates that cannot be loaded. -/
def RatesError.message : RatesError → String
  | file error => error.message
  | access error => error.message
  | malformed path => path ++ ": invalid YAML"
  | word fault => fault.message
  | notAMapping path => path ++ ": expected a mapping of currency to rate"
  | notANumber path key => path ++ ": rate for " ++ key ++ " is not a number"
  | tooLarge => "int too large to convert to float"
  | longKey => "Exceeds the limit (" ++ toString Datum.maxDigits ++
      " digits) for integer string conversion; use sys.set_int_max_str_digits() to increase the " ++
      "limit"

/-- What stands in the way of the text of a file, as the reason why rates cannot be loaded. -/
def RatesError.ofAccess : AccessError → RatesError
  | .file error => .file error
  | error => .access error

namespace Rates

/-- The word that a key of a rate is known by. -/
def keyWord (key : Datum) : Except RatesError String :=
  key.word?.elim (.error .longKey) .ok

/-- The rate of one entry; truth values and texts are not rates. A rate is made a real number
before its key is made a word. -/
def ofEntry (path : String) (entry : Datum × Datum) : Except RatesError (String × Float) :=
  match entry.2 with
  | .real rate => do return (← keyWord entry.1, rate)
  | .integer rate =>
    let rounded := Datum.realOfInteger rate
    if rounded.isInf then .error .tooLarge else do return (← keyWord entry.1, rounded)
  | _ => do throw (.notANumber path (← keyWord entry.1))

end Rates

namespace Readers

/-- The exchange rates that the text of a file stands for. -/
def ratesOfText (readers : Readers) (path text : String) : Except RatesError (Table Float) :=
  match readers.value text with
  | .error .malformed => .error (.malformed path)
  | .error fault => .error (.word fault)
  | .ok .null => .ok Table.empty
  | .ok (.mapping entries) => do return Table.ofList (← entries.mapM (Rates.ofEntry path))
  | .ok _ => .error (.notAMapping path)

/-- The exchange rates of a file. -/
def ratesOfFile (readers : Readers) (files : Files) (path : String) :
    Except RatesError (Table Float) := do
  readers.ratesOfText path (← (files.read path).mapError RatesError.ofAccess)

end Readers

/-- The exchange rates of a file, as the program loads them. -/
def Rates.ofFile : Files → String → Except RatesError (Table Float) :=
  Readers.standard.ratesOfFile

end UnitSheet
