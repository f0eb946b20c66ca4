/-
This file cuts texts into pieces: worksheets into lines, and paths into steps.

A worksheet is cut at line feeds only, and one carriage return before the line feed
belongs to the line end (`sheetLines`). A file is first brought to line feeds, whatever
line ends it uses (`withLineFeeds`). The path of a file is brought to its plain form, without
steps that stay in place and without empty steps (`plainPath`).
-/

namespace UnitSheet.Text

/-! ### Lines -/

/-- The pieces between line feeds; a text without line feeds is one piece. -/
def splitLineFeeds : List Char → List (List Char)
  | [] => [[]]
  | character :: rest =>
    if character = '\n' then [] :: splitLineFeeds rest
    else match splitLineFeeds rest with
      | [] => [[character]]
      | line :: others => (character :: line) :: others

/-- A line without one carriage return at its end. -/
def dropCarriageReturn (line : List Char) : List Char :=
  if line.getLast? = some '\r' then line.dropLast else line

/-- The lines of a worksheet. -/
def sheetLines (source : String) : List (List Char) :=
  (splitLineFeeds source.toList).map dropCarriageReturn

/-- The text with every carriage return, alone or before a line feed, made a line feed. -/
def withLineFeeds : List Char → List Char
  | [] => []
  | '\r' :: '\n' :: rest => '\n' :: withLineFeeds rest
  | '\r' :: rest => '\n' :: withLineFeeds rest
  | character :: rest => character :: withLineFeeds rest

/-- There is always at least one piece. -/
theorem splitLineFeeds_ne_nil (text : List Char) : splitLineFeeds text ≠ [] := by
  cases text with
  | nil => simp [splitLineFeeds]
  | cons character rest =>
    simp only [splitLineFeeds]
    split
    · simp
    · split <;> simp

/-! ### Paths -/

/-- The steps of a path. -/
def pathSteps : List Char → List (List Char)
  | [] => [[]]
  | character :: rest =>
    match pathSteps rest with
    | [] => [[character]]
    | step :: others =>
      if character = '/' then [] :: step :: others else (character :: step) :: others

/-- What a path begins with: two slashes have a meaning of their own, any other number counts as
one. -/
def pathRoot (path : List Char) : String :=
  match (path.takeWhile (· == '/')).length with
  | 0 => ""
  | 2 => "//"
  | _ => "/"

/-- The plain form of a path. The path without steps is the current directory. -/
def plainPath (path : String) : String :=
  let steps := (pathSteps path.toList).filter fun step => !step.isEmpty && step != ['.']
  let plain := pathRoot path.toList ++ String.intercalate "/" (steps.map String.ofList)
  if plain.isEmpty then "." else plain

end UnitSheet.Text
