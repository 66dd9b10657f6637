import PathAssembly.Logging.Decimals
import PathAssembly.Text.Quoted

/-!
# Layouts of fields

How a field of a log line is laid out: flags, a width, a precision behind a point, and a letter. The
precision of a text is its largest number of characters, that of a number its least number of
digits, or how many follow the point. What is shorter than the width is filled up, from the left
unless a flag says otherwise.
-/

namespace PathAssembly.Logging

structure Layout where
  flags : List Char := []
  width : Nat := 0
  /-- The largest number of characters of a text, the least number of digits, or the number of those
  behind a point. -/
  precision : Option Nat := none
  letter : Char
  deriving DecidableEq, Repr

inductive Content where
  | text (s : String)
  | number (i : Int)
  deriving DecidableEq, Repr

def isWidthDigit (c : Char) : Bool := '0' ≤ c && c ≤ '9'

def leadingWidth (cs : List Char) : Nat × List Char :=
  ((cs.takeWhile isWidthDigit).foldl (fun n c => n * 10 + (c.toNat - '0'.toNat)) 0,
    cs.dropWhile isWidthDigit)

namespace Layout

def flagChars : List Char := "-+ #0".toList

/-- The letters for the size of a number, which do not matter. -/
def sizeLetters : List Char := "hlL".toList

/-- The width from which on a field is not written. -/
def maxWidth : Nat := 0x1000_0000

def ofChars? (cs : List Char) : Option (Layout × List Char) :=
  let flags := cs.takeWhile flagChars.contains
  let (width, rest) := leadingWidth (cs.drop flags.length)
  let (precision, rest) := match rest with
    | '.' :: rest =>
      let (precision, rest) := leadingWidth rest
      (some precision, rest)
    | _ => (none, rest)
  let rest := if rest.head?.any sizeLetters.contains then rest.tail else rest
  match rest with
  | letter :: rest => some ({ flags, width, precision, letter }, rest)
  | [] => none

def fill (l : Layout) (sign body : List Char) (zeros : Bool) : List Char :=
  let missing := l.width - sign.length - body.length
  if l.flags.contains '-' then sign ++ body ++ List.replicate missing ' '
  else if zeros then sign ++ List.replicate missing '0' ++ body
  else List.replicate missing ' ' ++ sign ++ body

def layText (l : Layout) (s : String) : List Char :=
  let cs := s.toList
  l.fill [] (match l.precision with | some n => cs.take n | none => cs) false

def layChar (l : Layout) (c : Char) : List Char := l.fill [] [c] false

def base? (letter : Char) : Option Nat :=
  match letter with
  | 'd' | 'i' | 'u' => some 10
  | 'o' => some 8
  | 'x' | 'X' => some 16
  | _ => none

def mark (letter : Char) : List Char :=
  if letter = 'o' ∨ letter = 'x' ∨ letter = 'X' then ['0', letter] else []

def sign (l : Layout) (negative : Bool) : List Char :=
  if negative then ['-'] else if l.flags.contains '+' then ['+']
  else if l.flags.contains ' ' then [' '] else []

def layNumber (l : Layout) (base : Nat) (i : Int) : List Char :=
  let digits := Nat.toDigits base i.natAbs
  let digits := if l.letter = 'X' then digits.map Char.toUpper else digits
  let digits := List.replicate (l.precision.getD 0 - digits.length) '0' ++ digits
  let mark := if l.flags.contains '#' then mark l.letter else []
  l.fill (l.sign (i < 0) ++ mark) digits (l.flags.contains '0')

def defaultPrecision : Nat := 6

/-- How a letter, in whichever case, writes a number with a point: with a precision, and with or
without zeros that do not count. -/
def decimals? (letter : Char) : Option (Nat → Bool → Nat → List Char) :=
  match letter.toLower with
  | 'e' => some withPower
  | 'f' => some inFull
  | 'g' => some shorter
  | _ => none

/-- A number in double precision with a point, filled up, unless it is too large. -/
def layDecimals? (l : Layout) (write : Nat → Bool → Nat → List Char) (i : Int) :
    Option (List Char) := do
  let x ← (Binary64.ofInt i).toOption
  let n ← x.exactInt?
  let body := write (l.precision.getD defaultPrecision) (l.flags.contains '#') n.natAbs
  let body := if l.letter.isUpper then body.map Char.toUpper else body
  return l.fill (l.sign (i < 0)) body (l.flags.contains '0')

def basic (s : String) : String :=
  String.ofList (s.toList.flatMap fun c => if c.toNat < 0x80 then [c] else Text.byNumber c.toNat)

def lay? (l : Layout) (content : Content) : Option (List Char) :=
  if maxWidth ≤ l.width ∨ maxWidth ≤ l.precision.getD 0 then none
  else match l.letter, content with
    | 's', .text s => some (l.layText s)
    | 'r', .text s => some (l.layText (Text.quoted s))
    | 'a', .text s => some (l.layText (basic (Text.quoted s)))
    | 'c', .text s =>
      match s.toList with
      | [c] => some (l.layChar c)
      | _ => none
    | letter, .number i =>
      if letter = 's' ∨ letter = 'r' ∨ letter = 'a' then some (l.layText (toString i))
      else if letter = 'c' then
        if 0 ≤ i ∧ i < 0x11_0000 then some (l.layChar (Char.ofNat i.toNat)) else none
      else match base? letter, decimals? letter with
        | some base, _ => some (l.layNumber base i)
        | none, some write => l.layDecimals? write i
        | none, none => none
    | _, _ => none

end Layout

end PathAssembly.Logging
