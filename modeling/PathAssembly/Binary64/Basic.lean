import PathAssembly.Fault

/-!
# Numbers in double precision

A number in the 64-bit interchange format: a sign, eleven bits of exponent and 52 bits of fraction.
A finite number is `significand * 2 ^ exponent` up to its sign. All work on numbers is exact work on
integers: reading rounds a ratio to the nearest number, of two equally near ones to the one with an
even significand.
-/

namespace PathAssembly

structure Binary64 where
  bits : UInt64
  deriving DecidableEq, Repr

namespace Binary64

def fractionLimit : Nat := 0x10_0000_0000_0000

def signWeight : Nat := 0x8000_0000_0000_0000

/-- The exponent field of infinities and of what is no number. -/
def specialExponent : Nat := 2047

def ofMagnitude (negative : Bool) (magnitude : Nat) : Binary64 :=
  ⟨UInt64.ofNat ((if negative then signWeight else 0) + magnitude)⟩

def zero (negative : Bool := false) : Binary64 := ofMagnitude negative 0

def infinity (negative : Bool := false) : Binary64 :=
  ofMagnitude negative (specialExponent * fractionLimit)

def nan : Binary64 := ofMagnitude false (specialExponent * fractionLimit + fractionLimit / 2)

def isNegative (x : Binary64) : Bool := signWeight ≤ x.bits.toNat

def fraction (x : Binary64) : Nat := x.bits.toNat % fractionLimit

def exponentField (x : Binary64) : Nat := x.bits.toNat / fractionLimit % 0x800

def isNaN (x : Binary64) : Bool := x.exponentField == specialExponent && x.fraction != 0

def isInfinite (x : Binary64) : Bool := x.exponentField == specialExponent && x.fraction == 0

def isZero (x : Binary64) : Bool := x.exponentField == 0 && x.fraction == 0

def significand (x : Binary64) : Nat :=
  if x.exponentField = 0 then x.fraction else fractionLimit + x.fraction

def exponent (x : Binary64) : Int := (max x.exponentField 1 : Nat) - 1075

/-- Whether two numbers are equal: both zeros are, and what is no number equals nothing. -/
def equals (x y : Binary64) : Bool :=
  !x.isNaN && !y.isNaN && (x == y || (x.isZero && y.isZero))

private def scaled (n : Nat) (e : Int) : Nat × Nat :=
  if 0 ≤ e then (n, Nat.pow 2 e.toNat) else (n * Nat.pow 2 (-e).toNat, 1)

/-- The quotient rounded to a whole number, halves to even. -/
def roundQuotient (numerator denominator : Nat) : Nat :=
  let q := numerator / denominator
  let r := 2 * (numerator % denominator)
  if r > denominator ∨ (r = denominator ∧ q % 2 = 1) then q + 1 else q

/-- The exponent at which the ratio has 53 binary digits before the point, or the least one. -/
private def ratioExponent (numerator denominator : Nat) : Int :=
  let estimate : Int := (numerator.log2 : Int) - denominator.log2 - 53
  let (n, d) := scaled numerator (estimate + 1)
  let exact := if fractionLimit * (denominator * d) ≤ n then estimate + 1 else estimate
  max exact (-1074)

/-- The number nearest to a ratio of naturals, with a sign; infinity beyond the largest one. -/
def ofRatio (negative : Bool) (numerator denominator : Nat) : Binary64 :=
  if numerator = 0 then zero negative
  else
    let e := ratioExponent numerator denominator
    let (n, d) := scaled numerator e
    let m := roundQuotient n (denominator * d)
    let magnitude := (e + 1074).toNat * fractionLimit + m
    if specialExponent * fractionLimit ≤ magnitude then infinity negative
    else ofMagnitude negative magnitude

/-- The number nearest to an integer, which must not be beyond the largest one. -/
def ofInt (i : Int) : Except Fault Binary64 :=
  let x := ofRatio (i < 0) i.natAbs 1
  if x.isInfinite then .error .integerTooLarge else .ok x

/-- The integer next to a finite number on the side of zero. -/
def truncate (x : Binary64) : Except Fault Int :=
  if x.isNaN then .error .integerOfNaN
  else if x.isInfinite then .error .integerOfInfinity
  else
    let whole : Nat :=
      if 0 ≤ x.exponent then x.significand * Nat.pow 2 x.exponent.toNat
      else x.significand / Nat.pow 2 (-x.exponent).toNat
    .ok (if x.isNegative then -(whole : Int) else whole)

def exactInt? (x : Binary64) : Option Int :=
  match x.truncate with
  | .ok i =>
    if 0 ≤ x.exponent ∨ x.significand % Nat.pow 2 (-x.exponent).toNat = 0 then some i else none
  | .error _ => none

end Binary64

end PathAssembly
