/-
This file is the program: it reads what a command line names and writes how it ends.
-/

import UnitSheet.Command.Run

namespace UnitSheet.Command

/-- The plain paths of the files that a command line may read. -/
def paths (texts : List String) (configVariable : Option String) : List String :=
  let named := match Arguments.read texts with
    | .ok arguments => [arguments.config, arguments.rates, arguments.file].filterMap id
    | .error _ => []
  named ++ (configVariable.map Text.plainPath).toList

/-- What is found at a path. -/
def findEntry (path : String) : IO FileEntry := do
  try return .text (← IO.FS.readFile path)
  catch error =>
    if ← (← IO.FS.realPath path).isDir then return .directory
    else match error with
      | .inappropriateType .. => return .belowFile
      | .permissionDenied _ code reason | .invalidArgument _ code reason =>
        if code = 40 then return .circular
        else return .refused ("[Errno " ++ toString code ++ "] " ++ reason)
      | _ => return .missing

/-- What is found at some paths. -/
def findEntries (paths : List String) : IO (Table FileEntry) := do
  let mut found := Table.empty
  for path in paths do
    found := found.put path (← findEntry path)
  return found

/-- The words that tell how the program is used. -/
def usage : String :=
  "usage: [-h] [--config CONFIG] [--rates RATES] [--verbose] execute|colorize [file]"

/-- Carries out a command line. -/
def carryOut (texts : List String) : IO UInt32 := do
  let configVariable ← IO.getEnv "UNITCALC_CONFIG"
  let found ← findEntries (paths texts configVariable)
  let readsInput := match Arguments.read texts with
    | .ok arguments => arguments.file.isNone
    | .error _ => false
  let input ← if readsInput then (← IO.getStdin).readToEnd else pure ""
  let files path := (found.find? path).getD .missing
  let ending := run ⟨files, input, configVariable⟩ texts
  match ending with
  | .help => IO.println usage
  | .misused => IO.eprintln usage
  | .broken breakdown => IO.eprintln breakdown.message
  | _ => (← IO.getStdout).putStr ending.output
  for line in ending.complaints do
    IO.eprintln line
  return ending.status.toUInt32

end UnitSheet.Command

/-- The program. -/
def main (texts : List String) : IO UInt32 :=
  UnitSheet.Command.carryOut texts
