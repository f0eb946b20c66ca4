/-
This file holds the dates and times that a settings file can contain.

A moment is a day and perhaps a time of that day, which may say how far it is from universal
time. Two times that say so are the same moment if they are in universal time.
-/

namespace UnitSheet

/-- A time of a day. The zone is the distance from universal time in minutes. -/
structure Moment.Clock where
  hour : Nat
  minute : Nat
  second : Nat
  microsecond : Nat
  zone : Option Int
  deriving DecidableEq

/-- A day, or a time of a day. -/
structure Moment where
  year : Nat
  month : Nat
  day : Nat
  clock : Option Moment.Clock
  deriving DecidableEq

namespace Moment

/-! ### The calendar -/

/-- Whether a year has a leap day. -/
def isLeap (year : Nat) : Bool :=
  year % 4 == 0 && (year % 100 != 0 || year % 400 == 0)

/-- The number of days of a month. -/
def daysOfMonth (year month : Nat) : Nat :=
  match month with
  | 2 => if isLeap year then 29 else 28
  | 4 | 6 | 9 | 11 => 30
  | _ => 31

/-- The number of days before a day, counted from the first day of the year one. -/
def daysBefore (year month day : Nat) : Nat :=
  let years := year - 1
  365 * years + years / 4 - years / 100 + years / 400 +
    (List.range (month - 1)).foldl (fun days index => days + daysOfMonth year (index + 1)) 0 +
    (day - 1)

/-! ### Moments that do not exist -/

/-- Why there is no such moment. -/
inductive Problem where
  | zone (minutes : Int)
  | year (number : Nat)
  | month
  | day
  | hour
  | minute
  | second
  deriving DecidableEq

/-- The words for it. -/
def Problem.message : Problem → String
  | zone _ => "offset must be strictly between -24 and 24 hours"
  | year number => "year " ++ toString number ++ " is out of range"
  | month => "month must be in 1..12"
  | day => "day is out of range for month"
  | hour => "hour must be in 0..23"
  | minute => "minute must be in 0..59"
  | second => "second must be in 0..59"

/-- Refuses a time that no day has. -/
def Clock.check (clock : Clock) : Except Problem Unit :=
  if 23 < clock.hour then .error .hour
  else if 59 < clock.minute then .error .minute
  else if 59 < clock.second then .error .second
  else .ok ()

/-- Refuses a day that no year has. -/
def checkDay (year month day : Nat) : Except Problem Unit :=
  if year = 0 then .error (.year year)
  else if month < 1 ∨ 12 < month then .error .month
  else if day < 1 ∨ daysOfMonth year month < day then .error .day
  else .ok ()

/-- Refuses a zone of a day or more. -/
def checkZone (zone : Option Int) : Except Problem Unit :=
  match zone with
  | some minutes => if 1440 ≤ minutes.natAbs then .error (.zone minutes) else .ok ()
  | none => .ok ()

/-- A moment, if it exists. -/
def check (moment : Moment) : Except Problem Moment := do
  checkZone (moment.clock.bind Clock.zone)
  checkDay moment.year moment.month moment.day
  (moment.clock.map Clock.check).getD (.ok ())
  return moment

/-! ### Comparing and writing -/

/-- The microseconds from the first moment of the year one in universal time. -/
def universal (moment : Moment) (clock : Clock) (zone : Int) : Int :=
  let seconds : Nat := (daysBefore moment.year moment.month moment.day * 24 + clock.hour) * 3600 +
    clock.minute * 60 + clock.second
  ((seconds : Int) - 60 * zone) * 1000000 + clock.microsecond

/-- Whether two moments are the same. -/
def same (first second : Moment) : Bool :=
  match first.clock, second.clock with
  | some firstClock, some secondClock =>
    match firstClock.zone, secondClock.zone with
    | some firstZone, some secondZone =>
      first.universal firstClock firstZone == second.universal secondClock secondZone
    | _, _ => first == second
  | _, _ => first == second

/-- A number with zeros before it, in a field of a given width. -/
def padded (width number : Nat) : String :=
  let digits := Nat.toDigits 10 number
  String.ofList (List.replicate (width - digits.length) '0' ++ digits)

/-- A zone as it is written after a time. -/
def zoneText (minutes : Int) : String :=
  (if minutes < 0 then "-" else "+") ++ padded 2 (minutes.natAbs / 60) ++ ":" ++
    padded 2 (minutes.natAbs % 60)

/-- A time of a day. -/
def Clock.text (clock : Clock) : String :=
  padded 2 clock.hour ++ ":" ++ padded 2 clock.minute ++ ":" ++ padded 2 clock.second ++
    (if clock.microsecond = 0 then "" else "." ++ padded 6 clock.microsecond) ++
    (clock.zone.map zoneText).getD ""

/-- A moment, the day first. -/
def text (moment : Moment) : String :=
  padded 4 moment.year ++ "-" ++ padded 2 moment.month ++ "-" ++ padded 2 moment.day ++
    (moment.clock.map fun clock => " " ++ clock.text).getD ""

end Moment

end UnitSheet
