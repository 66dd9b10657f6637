import PathAssembly.Binary64.Basic

/-!
# Sums and products

Arithmetic on numbers that are not negative: the exact result is rounded to the nearest number.
-/

namespace PathAssembly.Binary64

def ratio (x : Binary64) : Nat × Nat :=
  if 0 ≤ x.exponent then (x.significand * Nat.pow 2 x.exponent.toNat, 1)
  else (x.significand, Nat.pow 2 (-x.exponent).toNat)

/-- The sum of two numbers that are not negative. -/
def plus (x y : Binary64) : Binary64 :=
  if x.isNaN || y.isNaN then nan
  else if x.isInfinite || y.isInfinite then infinity
  else
    let (a, b) := x.ratio
    let (c, d) := y.ratio
    ofRatio false (a * d + c * b) (b * d)

/-- The product of two numbers that are not negative; zero times infinity is no number. -/
def times (x y : Binary64) : Binary64 :=
  if x.isNaN || y.isNaN then nan
  else if x.isInfinite || y.isInfinite then (if x.isZero || y.isZero then nan else infinity)
  else
    let (a, b) := x.ratio
    let (c, d) := y.ratio
    ofRatio false (a * c) (b * d)

def withSign (negative : Bool) (x : Binary64) : Binary64 :=
  ofMagnitude negative (x.bits.toNat % signWeight)

end PathAssembly.Binary64
