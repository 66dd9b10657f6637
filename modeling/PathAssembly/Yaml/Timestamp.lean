import PathAssembly.Binary64.Literal
import PathAssembly.Fixture.Value.Timestamp

/-!
# Timestamps in documents

A date is a year of four digits, a month and a day, with hyphens between them. Behind it may stand,
after a T or a blank, a time of day of hours, minutes and seconds with colons between them, perhaps
with a fraction, and behind that a Z or the distance from universal time. Month and day may have a
single digit only if a time follows.
-/

namespace PathAssembly.Yaml

/-- The number of at least `least` and at most `most` digits at the start, and what follows it. -/
def leadingNumber? (least most : Nat) (cs : List Char) : Option (Nat × List Char) :=
  let digits := (cs.takeWhile fun c => '0' ≤ c && c ≤ '9').take most
  if digits.length < least then none
  else some (Binary64.ofDecimalDigits digits, cs.drop digits.length)

def behind? (c : Char) : List Char → Option (List Char)
  | d :: rest => if d = c then some rest else none
  | [] => none

def microseconds (digits : List Char) : Nat :=
  Binary64.ofDecimalDigits ((digits ++ List.replicate 6 '0').take 6)

def leadingFraction (cs : List Char) : Nat × List Char :=
  match cs with
  | '.' :: rest =>
    let digits := rest.takeWhile fun c => '0' ≤ c && c ≤ '9'
    (microseconds digits, rest.drop digits.length)
  | _ => (0, cs)

def isTimeGap (c : Char) : Bool := c == ' ' || c == '\t'

def zone? (cs : List Char) : Option (Option Int) :=
  let signed (negative : Bool) (rest : List Char) : Option (Option Int) := do
    let (hours, rest) ← leadingNumber? 1 2 rest
    let minutes ← if rest.isEmpty then some 0 else do
      let (minutes, rest) ← leadingNumber? 2 2 (← behind? ':' rest)
      if rest.isEmpty then some minutes else none
    let offset : Int := hours * 60 + minutes
    return some (if negative then -offset else offset)
  match cs.dropWhile isTimeGap with
  | [] => if cs.isEmpty then some none else none
  | ['Z'] => some (some 0)
  | '-' :: rest => signed true rest
  | '+' :: rest => signed false rest
  | _ => none

def clock? (cs : List Char) : Option Clock := do
  let (hour, rest) ← leadingNumber? 1 2 cs
  let (minute, rest) ← leadingNumber? 2 2 (← behind? ':' rest)
  let (second, rest) ← leadingNumber? 2 2 (← behind? ':' rest)
  let (microsecond, rest) := leadingFraction rest
  return { hour, minute, second, microsecond, offset := ← zone? rest }

def behindDate? (cs : List Char) : Option (List Char) :=
  match cs with
  | 'T' :: rest | 't' :: rest => some rest
  | _ => if cs.head?.any isTimeGap then some (cs.dropWhile isTimeGap) else none

/-- The timestamp that a text writes, which need not be a possible one. -/
def timestamp? (cs : List Char) : Option Timestamp := do
  let (year, rest) ← leadingNumber? 4 4 cs
  let (month, rest) ← leadingNumber? 1 2 (← behind? '-' rest)
  let (day, rest) ← leadingNumber? 1 2 (← behind? '-' rest)
  if rest.isEmpty then
    if cs.length = 10 then some { year, month, day } else none
  else
    return { year, month, day, clock := some (← clock? (← behindDate? rest)) }

end PathAssembly.Yaml
