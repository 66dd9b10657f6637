import PathAssembly.Binary64.Basic
import PathAssembly.Text.Decimal

/-!
# Decimals of whole numbers

A whole number with a point: in full, with a power of ten, or in whichever of the two ways is
shorter. A number is rounded to as many digits as are asked for, halves to the even neighbour.
-/

namespace PathAssembly.Logging

/-- The first `count` digits of a number, rounded, and the number of places behind the first one. -/
def leadingDigits (count n : Nat) : List Char × Nat :=
  let places := (Nat.toDigits 10 n).length
  let kept := if places ≤ count then n * Nat.pow 10 (count - places)
    else Binary64.roundQuotient n (Nat.pow 10 (places - count))
  if kept = Nat.pow 10 count then (Nat.toDigits 10 (kept / 10), places)
  else ((Text.padded count kept).toList, places - 1)

/-- Digits with a point behind the first `whole` of them. Unless all are wanted, there is no point
in front of nothing. -/
def pointed (whole : Nat) (all : Bool) (digits : List Char) : List Char :=
  let fraction := digits.drop whole
  digits.take whole ++ if fraction.isEmpty && !all then [] else '.' :: fraction

def dropZeros (whole : Nat) (digits : List Char) : List Char :=
  digits.take whole ++ ((digits.drop whole).reverse.dropWhile (· == '0')).reverse

/-- A number in full, with `precision` places behind the point. -/
def inFull (precision : Nat) (all : Bool) (n : Nat) : List Char :=
  let digits := Nat.toDigits 10 n
  pointed digits.length all (digits ++ List.replicate precision '0')

def powerOfTen (exponent : Nat) : List Char := 'e' :: '+' :: (Text.padded 2 exponent).toList

def withPower (precision : Nat) (all : Bool) (n : Nat) : List Char :=
  let (digits, exponent) := leadingDigits (precision + 1) n
  pointed 1 all digits ++ powerOfTen exponent

/-- A number with at most `precision` digits, at least one: in full if it has no more places, with a
power of ten otherwise. Zeros at the end count only if all are wanted. -/
def shorter (precision : Nat) (all : Bool) (n : Nat) : List Char :=
  let (digits, exponent) := leadingDigits (max precision 1) n
  let whole := if exponent < max precision 1 then exponent + 1 else 1
  let digits := if all then digits else dropZeros whole digits
  pointed whole all digits ++ if exponent < max precision 1 then [] else powerOfTen exponent

end PathAssembly.Logging
