import PathAssembly.Binary64.Basic

/-!
# Shortest decimals

A number is written with the fewest decimal digits that read back to it. Among the decimals of that
many digits the nearest one is taken, and of two equally near ones the even one. The layout is
positional from 0.0001 up to 10 ^ 16 and has an exponent of at least two digits elsewhere.
-/

namespace PathAssembly.Binary64

/-- The ratios that read back to a number, with the number itself in the middle: lower end, number
and upper end over one denominator. The ends read back as well if it is closed. -/
structure Interval where
  low : Nat
  value : Nat
  high : Nat
  denominator : Nat
  closed : Bool

/-- The interval of a finite number; the gap below a power of two is half the gap above it. -/
def interval (x : Binary64) : Interval :=
  let m := x.significand
  let narrow := x.fraction = 0 ∧ 1 < x.exponentField
  let e := x.exponent - 2
  let unit := Nat.pow 2 e.toNat
  { low := (4 * m - if narrow then 1 else 2) * unit
    value := 4 * m * unit
    high := (4 * m + 2) * unit
    denominator := Nat.pow 2 (-e).toNat
    closed := m % 2 = 0 }

namespace Interval

def contains (i : Interval) (digits : Nat) (place : Int) : Bool :=
  let d := digits * Nat.pow 10 place.toNat * i.denominator
  let scale := Nat.pow 10 (-place).toNat
  (i.low * scale < d && d < i.high * scale)
    || (i.closed && (d == i.low * scale || d == i.high * scale))

/-- The digits at a place that read back and are nearest to the number. -/
def digitsAt? (i : Interval) (place : Int) : Option Nat :=
  let numerator := i.value * Nat.pow 10 (-place).toNat
  let denominator := i.denominator * Nat.pow 10 place.toNat
  let below := numerator / denominator
  match i.contains below place, i.contains (below + 1) place with
  | true, true => some (roundQuotient numerator denominator)
  | true, false => some below
  | false, true => some (below + 1)
  | false, false => none

/-- The least power of ten above the number. -/
def scale (i : Interval) : Int :=
  let above (k : Int) : Bool :=
    i.value * Nat.pow 10 (-k).toNat < i.denominator * Nat.pow 10 k.toNat
  (((List.range 640).map fun (n : Nat) => (n : Int) - 324).find? above).getD 316

/-- The fewest digits that read back, and the place of the last one. -/
def shortest (i : Interval) : Nat × Int :=
  let k := i.scale
  let places := (List.range 17).map fun (n : Nat) => k - 1 - n
  (places.findSome? fun place => (i.digitsAt? place).map (·, place)).getD (i.value, 0)

end Interval

def stripZeros : Nat → Nat × Int → Nat × Int
  | 0, d => d
  | fuel + 1, (digits, place) =>
    if digits ≠ 0 ∧ digits % 10 = 0 then stripZeros fuel (digits / 10, place + 1)
    else (digits, place)

/-- The text of a positive decimal: positional if its first digit stands between the fourth place
behind the point and the sixteenth before it. -/
def layout (digits : Nat) (place : Int) : String :=
  let cs := Nat.toDigits 10 digits
  let n := cs.length
  let point : Int := n + place
  if -4 < point ∧ point ≤ 16 then
    if point ≤ 0 then
      String.ofList ('0' :: '.' :: List.replicate (-point).toNat '0' ++ cs)
    else if n ≤ point.toNat then
      String.ofList (cs ++ List.replicate (point.toNat - n) '0' ++ ['.', '0'])
    else
      String.ofList (cs.take point.toNat ++ '.' :: cs.drop point.toNat)
  else
    let e := point - 1
    let exponent := Nat.toDigits 10 e.natAbs
    let exponent := List.replicate (2 - exponent.length) '0' ++ exponent
    let mantissa := if n = 1 then cs else cs.take 1 ++ '.' :: cs.drop 1
    String.ofList (mantissa ++ 'e' :: (if e < 0 then '-' else '+') :: exponent)

def render (x : Binary64) : String :=
  if x.isNaN then "nan"
  else
    let magnitude :=
      if x.isInfinite then "inf"
      else if x.isZero then "0.0"
      else
        let (digits, place) := stripZeros 17 x.interval.shortest
        layout digits place
    if x.isNegative then "-" ++ magnitude else magnitude

end PathAssembly.Binary64
