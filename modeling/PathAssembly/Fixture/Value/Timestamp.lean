import PathAssembly.Text.Decimal

/-!
# Timestamps

A date, perhaps with a time of day, which may say how far its clock is ahead of universal time. Two
timestamps are the same if they are the same date, the same date and time of clocks that do not say
so, or the same moment by clocks that do.
-/

namespace PathAssembly

/-- A time of day, with the minutes by which the clock is ahead of universal time, if it says so. -/
structure Clock where
  hour : Nat
  minute : Nat
  second : Nat
  microsecond : Nat := 0
  offset : Option Int := none
  deriving DecidableEq, Repr

structure Timestamp where
  year : Nat
  month : Nat
  day : Nat
  clock : Option Clock := none
  deriving DecidableEq, Repr

namespace Clock

def isPossible (c : Clock) : Bool :=
  c.hour < 24 && c.minute < 60 && c.second < 60 && c.offset.all (·.natAbs < 24 * 60)

def text (c : Clock) : String :=
  let time := ":".intercalate ([c.hour, c.minute, c.second].map (Text.padded 2))
  let fraction := if c.microsecond = 0 then "" else "." ++ Text.padded 6 c.microsecond
  let zone := match c.offset with
    | some offset =>
      (if offset < 0 then "-" else "+") ++ Text.padded 2 (offset.natAbs / 60) ++ ":"
        ++ Text.padded 2 (offset.natAbs % 60)
    | none => ""
  time ++ fraction ++ zone

/-- The offset as it is shown: in days, of which there are -1 or none, and seconds. -/
def shownOffset (offset : Int) : String :=
  if offset = 0 then "datetime.timezone.utc"
  else
    let days := if offset < 0 then "days=-1, " else ""
    "datetime.timezone(datetime.timedelta(" ++ days ++ s!"seconds={offset * 60 % (24 * 60 * 60)}))"

/-- The time of day as it is shown, part by part, without a last part that is zero, and without the
last two parts if both are. -/
def shownParts (c : Clock) : List String :=
  let parts := if c.microsecond ≠ 0 then [c.hour, c.minute, c.second, c.microsecond]
    else if c.second ≠ 0 then [c.hour, c.minute, c.second]
    else [c.hour, c.minute]
  parts.map toString ++ (c.offset.map fun offset => "tzinfo=" ++ shownOffset offset).toList

end Clock

namespace Timestamp

def isLeap (year : Nat) : Bool := year % 4 == 0 && (year % 100 != 0 || year % 400 == 0)

def daysOf (year month : Nat) : Nat :=
  if month = 2 then (if isLeap year then 29 else 28)
  else if month = 4 ∨ month = 6 ∨ month = 9 ∨ month = 11 then 30
  else 31

def isPossible (t : Timestamp) : Bool :=
  0 < t.year && 0 < t.month && t.month ≤ 12 && 0 < t.day && t.day ≤ daysOf t.year t.month
    && t.clock.all Clock.isPossible

/-- The number of a date, counted from the first day of the first year. -/
def dayNumber (t : Timestamp) : Nat :=
  let years := t.year - 1
  let months := (List.range (t.month - 1)).foldl (fun days m => days + daysOf t.year (m + 1)) 0
  years * 365 + years / 4 - years / 100 + years / 400 + months + t.day

/-- The moment of a date and a time of a clock, in millionths of a second of universal time. -/
def moment (t : Timestamp) (c : Clock) (offset : Int) : Int :=
  let minutes : Int := (t.dayNumber * 24 + c.hour) * 60 + c.minute
  ((minutes - offset) * 60 + c.second) * 1000000 + c.microsecond

def same (t u : Timestamp) : Bool :=
  match t.clock, u.clock with
  | some c, some d =>
    match c.offset, d.offset with
    | some x, some y => t.moment c x == u.moment d y
    | none, none => t == u
    | _, _ => false
  | none, none => t == u
  | _, _ => false

def text (t : Timestamp) : String :=
  let date := "-".intercalate [Text.padded 4 t.year, Text.padded 2 t.month, Text.padded 2 t.day]
  match t.clock with
  | some c => date ++ " " ++ c.text
  | none => date

def shown (t : Timestamp) : String :=
  let date := [t.year, t.month, t.day].map toString
  match t.clock with
  | some c => "datetime.datetime(" ++ ", ".intercalate (date ++ c.shownParts) ++ ")"
  | none => "datetime.date(" ++ ", ".intercalate date ++ ")"

end Timestamp

end PathAssembly
