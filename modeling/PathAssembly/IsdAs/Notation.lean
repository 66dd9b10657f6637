import PathAssembly.IsdAs.Basic
import PathAssembly.Text.Fields
import PathAssembly.Text.Numeral

/-!
# ISD-AS notation

An ISD-AS is written as the isolation domain, a hyphen and the AS number. AS numbers of at most 32
bits are decimal; larger ones are three groups of 16 bits in hexadecimal with colons between them,
as in 1-ff00:0:110. Reading takes any integer literal for each number. What is read may hold halves
of characters, which are part of no literal; `parse_eq` says what is read of a text without them.
-/

namespace PathAssembly.IsdAs

def decimalLimit : Int := 0x1_0000_0000

/-- The digits of the group of 16 bits above `low` in an AS number. -/
def groupChars (asNumber low : Nat) : List Char := Nat.toDigits 16 (asNumber / low % 0x1_0000)

def asNumberChars (asNumber : Nat) : List Char :=
  if asNumber < 0x1_0000_0000 then Nat.toDigits 10 asNumber
  else groupChars asNumber 0x1_0000_0000 ++ ':' ::
    (groupChars asNumber 0x1_0000 ++ ':' :: groupChars asNumber 1)

def chars (a : IsdAs) : List Char :=
  Nat.toDigits 10 a.isd.toNat ++ '-' :: asNumberChars a.asNumber.toNat

def render (a : IsdAs) : String := String.ofList a.chars

def format (a : IsdAs) : Except Fault String := do
  checkParts a.isd a.asNumber
  return a.render

/-- The number of three groups of the text of an AS number, the highest first. -/
def readGroups (text : List Text.CodePoint) (value : Int) :
    List (List Text.CodePoint) → Except Fault Int
  | [] => .ok value
  | group :: rest => do
    let n ← Text.readIntegerPoints 16 group
    if n < 0 ∨ 0xffff < n then throw (.groupOutOfRange (Text.joined text))
    readGroups text (value * 0x1_0000 + n) rest

def readAsNumber (text : List Text.CodePoint) : Except Fault Int :=
  match Text.fields (.char ':') text with
  | [_] => do
    let n ← Text.readIntegerPoints 10 text
    if n < 0 ∨ decimalLimit ≤ n then throw (.decimalAsOutOfRange (Text.joined text))
    return n
  | groups =>
    if groups.length = 3 then readGroups text 0 groups
    else .error (.wrongGroupCount (Text.joined text))

def read (text : List Text.CodePoint) : Except Fault IsdAs :=
  match Text.fields (.char '-') (Text.trimPoints text) with
  | [isd, asNumber] => do
    let isd ← Text.readIntegerPoints 10 isd
    let asNumber ← readAsNumber asNumber
    ofParts isd asNumber
  | _ => .error (.notIsdAs (Text.joined text))

def parseAsNumber (text : String) : Except Fault Int := readAsNumber (Text.points text)

def parse (text : String) : Except Fault IsdAs := read (Text.points text)

theorem fields_map_char (separator : Char) (cs : List Char) :
    Text.fields (.char separator) (cs.map Text.CodePoint.char)
      = (Text.fields separator cs).map (List.map .char) :=
  Text.fields_map (fun _ _ h => Text.CodePoint.char.inj h) separator cs

theorem parse_eq (text : String) :
    parse text = match Text.fields '-' (Text.trim text.toList) with
      | [isd, asNumber] => do
        let isd ← Text.readInteger 10 isd
        let asNumber ← parseAsNumber (String.ofList asNumber)
        ofParts isd asNumber
      | _ => .error (.notIsdAs text) := by
  rw [parse, read, Text.joined_points, Text.points, Text.trimPoints_map_char, fields_map_char]
  generalize Text.fields '-' (Text.trim text.toList) = parts
  rcases parts with _ | ⟨isd, _ | ⟨asNumber, _ | _⟩⟩
  · rfl
  · rfl
  · simp [parseAsNumber, Text.points]
  · rfl

end PathAssembly.IsdAs
