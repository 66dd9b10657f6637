import PathAssembly.Fault
import PathAssembly.Text.Blank
import PathAssembly.Text.Decimal
import PathAssembly.Text.Digit

/-!
# Integer literals

An integer literal is a sign, if any, and digits of any script with single underscores between
them; blanks around it do not count. In base sixteen the digits may stand behind `0x`, and then
even behind one more underscore. Of decimal digits a literal holds at most `maxDecimalDigits`.
-/

namespace PathAssembly.Text

/-- The basic Latin form of a character of a numeral: a digit of another script becomes the same
digit, a blank of another script the ordinary space. -/
def basicNumeral (c : Char) : Char :=
  if c.toNat < 0x80 then c
  else if isBlank c then ' '
  else match decimalDigit? c with
    | some d => Char.ofNat ('0'.toNat + d)
    | none => c

def numeralChars (cs : List Char) : List Char := trimWhere isBasicBlank (cs.map basicNumeral)

def digit? (base : Nat) (c : Char) : Option Nat :=
  let value :=
    if '0' ≤ c ∧ c ≤ '9' then some (c.toNat - '0'.toNat)
    else if 'a' ≤ c ∧ c ≤ 'f' then some (c.toNat - 'a'.toNat + 10)
    else if 'A' ≤ c ∧ c ≤ 'F' then some (c.toNat - 'A'.toNat + 10)
    else none
  value.filter (· < base)

/-- The digits of a literal behind its first one, each perhaps behind an underscore. -/
def laterDigits (base : Nat) : List Char → Option (List Nat)
  | [] => some []
  | c :: rest =>
    match digit? base c with
    | some d => (laterDigits base rest).map (d :: ·)
    | none =>
      match c, rest with
      | '_', c' :: rest' => do
        let d ← digit? base c'
        return d :: (← laterDigits base rest')
      | _, _ => none

def digits? (base : Nat) : List Char → Option (List Nat)
  | [] => none
  | c :: rest => do
    let d ← digit? base c
    return d :: (← laterDigits base rest)

def ofDigits (base : Nat) (digits : List Nat) : Nat :=
  digits.foldl (fun n d => n * base + d) 0

def natural? (base : Nat) (cs : List Char) : Option Nat := do
  let cs := match base, cs with
    | 16, '0' :: x :: '_' :: rest => if x = 'x' ∨ x = 'X' then rest else cs
    | 16, '0' :: x :: rest => if x = 'x' ∨ x = 'X' then rest else cs
    | _, _ => cs
  let digits ← digits? base cs
  if base = 10 ∧ maxDecimalDigits < digits.length then none
  else some (ofDigits base digits)

def integer? (base : Nat) (cs : List Char) : Option Int :=
  match numeralChars cs with
  | '-' :: rest => (natural? base rest).map fun n => -(n : Int)
  | '+' :: rest => (natural? base rest).map fun n => (n : Int)
  | rest => (natural? base rest).map fun n => (n : Int)

def readInteger (base : Nat) (cs : List Char) : Except Fault Int :=
  match integer? base cs with
  | some i => .ok i
  | none => .error .unreadableInteger

/-- The integer that a text writes, or a refusal. No literal holds half a character. -/
def readIntegerPoints (base : Nat) (ps : List CodePoint) : Except Fault Int :=
  match chars? ps with
  | some cs => readInteger base cs
  | none => .error .unreadableInteger

@[simp] theorem readIntegerPoints_map_char (base : Nat) (cs : List Char) :
    readIntegerPoints base (cs.map .char) = readInteger base cs := by
  simp [readIntegerPoints]

end PathAssembly.Text
