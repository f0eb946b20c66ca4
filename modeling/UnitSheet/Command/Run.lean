/-
This file carries out a command line.

The steps are taken in order: settings, log level, exchange rates of the settings, exchange
rates of a file, the document, and last its evaluation or its highlighting. The first step
that fails decides how the command ends. Most failures are told in one line; some are not
expected, and the command breaks off with them.
-/

import UnitSheet.Command.Arguments
import UnitSheet.Markup
import UnitSheet.Settings.File
import UnitSheet.Sheet.Report

namespace UnitSheet.Command

/-- What a command can read: files, its input, and the variable that names a settings file. -/
structure Surroundings where
  files : Files
  input : String
  configVariable : Option String

/-- A failure that a command is not prepared for. -/
inductive Breakdown where
  | settings (error : SettingsError)
  | unknownLevel (level : RawText)
  | rates (error : RatesError)
  | source (error : AccessError)
  | evaluation (defect : Defect)
  /-- The output refuses the surrogates of a result. -/
  | surrogates

/-- The words for it. -/
def Breakdown.message : Breakdown → String
  | settings error => error.message
  | unknownLevel level => "Unknown level: " ++ level.quote
  | rates error => error.message
  | source error => error.message
  | evaluation defect => defect.message
  | surrogates => "surrogates not allowed"

/-- How a command ends. -/
inductive Ending where
  | finished (output : String)
  | failed (message : String)
  | help
  | misused
  | broken (breakdown : Breakdown)

namespace Ending

/-- The status with which the process exits. -/
def status : Ending → Nat
  | finished _ | help => 0
  | misused => 2
  | failed _ | broken _ => 1

/-- What is written to the output. -/
def output : Ending → String
  | finished output => output ++ "\n"
  | _ => ""

/-- The lines that tell of a failure. -/
def complaints : Ending → List String
  | failed message => ["Error: " ++ message]
  | _ => []

end Ending

/-- The levels of logging. -/
def logLevels : List String :=
  ["CRITICAL", "FATAL", "ERROR", "WARN", "WARNING", "INFO", "DEBUG", "NOTSET"]

/-- Refuses a log level that does not exist. A command that is to be verbose has its own. -/
def checkLevel (arguments : Arguments) (settings : Settings) : Except Ending Unit :=
  if arguments.verbose || logLevels.any (settings.logLevel == .plain ·) then .ok ()
  else .error (.broken (.unknownLevel settings.logLevel))

/-- The settings of a command line. -/
def loadSettings (readers : Readers) (surroundings : Surroundings) (arguments : Arguments) :
    Except Ending Settings :=
  (readers.loadSettings surroundings.files arguments.config
    surroundings.configVariable).mapError fun error => match error with
      | .file _ | .access _ | .word _ => .broken (.settings error)
      | _ => .failed error.message

/-- The exchange rates of a file, if the command line names one. -/
def loadRates (readers : Readers) (surroundings : Surroundings) (arguments : Arguments) :
    Except Ending (List (String × Float)) :=
  match arguments.rates with
  | none => .ok []
  | some path =>
    match readers.ratesOfFile surroundings.files path with
    | .ok rates => .ok rates.entries
    | .error error => match error with
      | .access .zeroCharacter | .malformed _ | .word _ | .tooLarge | .longKey =>
        .error (.broken (.rates error))
      | _ => .error (.failed error.message)

/-- The catalogue with exchange rates set. -/
def withRates (catalog : Catalog) (rates : List (String × Float)) : Except Ending Catalog :=
  (catalog.setRates rates).mapError fun error => .failed error.message

/-- The document: that of a file, or else the input. -/
def loadSource (surroundings : Surroundings) (arguments : Arguments) : Except Ending String :=
  match arguments.file with
  | none => .ok (String.ofList (Text.withLineFeeds surroundings.input.toList))
  | some path => (surroundings.files.read path).mapError fun error => match error with
    | .zeroCharacter => .broken (.source error)
    | _ => .failed error.message

/-- A result as it is written to the output. -/
def writeResult (result : RawText) : Except Ending String :=
  result.written?.elim (.error (.broken .surrogates)) .ok

/-- The output for a document. -/
def produce (action : Action) (settings : Settings) (catalog : Catalog) (source : String) :
    Except Ending String :=
  match action with
  | .colorize => .ok (Markup.document source)
  | .execute =>
    match Sheet.run catalog source with
    | .ok (sheet, outcomes) => writeResult (sheet.report settings outcomes)
    | .error (.cyclic error) => .error (.failed error.message)
    | .error (.defect defect) => .error (.broken (.evaluation defect))

/-- The output of a command. -/
def perform (readers : Readers) (surroundings : Surroundings) (arguments : Arguments) :
    Except Ending String := do
  let settings ← loadSettings readers surroundings arguments
  checkLevel arguments settings
  let configured ← withRates Catalog.builtin settings.currencyRates.entries
  let catalog ← withRates configured (← loadRates readers surroundings arguments)
  produce arguments.action settings catalog (← loadSource surroundings arguments)

/-- How a command line ends that has some readers for its files. -/
def runWith (readers : Readers) (surroundings : Surroundings) (texts : List String) : Ending :=
  match Arguments.read texts with
  | .error .help => .help
  | .error .wrong => .misused
  | .ok arguments =>
    match perform readers surroundings arguments with
    | .ok output => .finished output
    | .error ending => ending

/-- How a command line ends. -/
def run (surroundings : Surroundings) (texts : List String) : Ending :=
  runWith Readers.standard surroundings texts

end UnitSheet.Command
