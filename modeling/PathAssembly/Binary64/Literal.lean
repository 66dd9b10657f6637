import PathAssembly.Binary64.Basic
import PathAssembly.Text.Numeral

/-!
# Number literals

A number literal is a sign, if any, and decimal digits of any script with at most one point among
or around them, perhaps followed by an exponent; underscores may stand between two digits, and
blanks around the literal do not count. Infinity and what is no number are written by name, in any
case.
-/

namespace PathAssembly.Binary64

private def isDigit (c : Char) : Bool := '0' ≤ c && c ≤ '9'

/-- The characters without underscores, each of which must stand between two digits. -/
def dropUnderscores : Option Char → List Char → Option (List Char)
  | before, '_' :: c :: rest =>
    if before.any isDigit && isDigit c then (dropUnderscores (some c) rest).map (c :: ·) else none
  | _, ['_'] => none
  | _, c :: rest => (dropUnderscores (some c) rest).map (c :: ·)
  | _, [] => some []

def ofDecimalDigits (digits : List Char) : Nat :=
  digits.foldl (fun n c => n * 10 + (c.toNat - '0'.toNat)) 0

def exponent? : List Char → Option Int
  | [] => some 0
  | e :: rest =>
    if e = 'e' ∨ e = 'E' then
      let (negative, digits) := match rest with
        | '-' :: digits => (true, digits)
        | '+' :: digits => (false, digits)
        | digits => (false, digits)
      if digits.isEmpty || !digits.all isDigit then none
      else
        let value : Int := ofDecimalDigits digits
        some (if negative then -value else value)
    else none

/-- The number nearest to `digits * 10 ^ exponent`. Powers beyond the range of all numbers are not
written out. -/
def ofDecimal (negative : Bool) (digits : Nat) (exponent : Int) : Binary64 :=
  let places : Int := (Nat.toDigits 10 digits).length
  if digits = 0 ∨ places + exponent < -400 then zero negative
  else if 400 < places + exponent then infinity negative
  else if 0 ≤ exponent then ofRatio negative (digits * Nat.pow 10 exponent.toNat) 1
  else ofRatio negative digits (Nat.pow 10 (-exponent).toNat)

def unsigned? (negative : Bool) (cs : List Char) : Option Binary64 :=
  let name := cs.map Char.toLower
  if name = "inf".toList ∨ name = "infinity".toList then some (infinity negative)
  else if name = "nan".toList then some nan
  else
    let whole := cs.takeWhile isDigit
    let rest := cs.dropWhile isDigit
    let (fraction, tail) := match rest with
      | '.' :: behind => (behind.takeWhile isDigit, behind.dropWhile isDigit)
      | _ => ([], rest)
    if whole.isEmpty && fraction.isEmpty then none
    else (exponent? tail).map fun e =>
      ofDecimal negative (ofDecimalDigits (whole ++ fraction)) (e - fraction.length)

def literal? (cs : List Char) : Option Binary64 := do
  let cs ← dropUnderscores none (Text.numeralChars cs)
  match cs with
  | '-' :: rest => unsigned? true rest
  | '+' :: rest => unsigned? false rest
  | rest => unsigned? false rest

def read (cs : List Char) : Except Fault Binary64 :=
  match literal? cs with
  | some x => .ok x
  | none => .error .unreadableNumber

/-- The number that a text writes, or a refusal. No literal holds half a character. -/
def readPoints (ps : List Text.CodePoint) : Except Fault Binary64 :=
  match Text.chars? ps with
  | some cs => read cs
  | none => .error .unreadableNumber

end PathAssembly.Binary64
