/-!
# Decimal numerals

Integers in decimal. A numeral has at most `maxDecimalDigits` digits, whether it is read or written.
-/

namespace PathAssembly.Text

def maxDecimalDigits : Nat := 4300

def decimal? (i : Int) : Option String :=
  if i.natAbs < Nat.pow 10 maxDecimalDigits then some (toString i) else none

def padded (width n : Nat) : String :=
  let digits := Nat.toDigits 10 n
  String.ofList (List.replicate (width - digits.length) '0' ++ digits)

theorem decimal?_eq_some {i : Int} (h : i.natAbs < Nat.pow 10 maxDecimalDigits) :
    decimal? i = some (toString i) := if_pos h

end PathAssembly.Text
