/-!
# Code points

In units of 16 bits a character beyond the first 65536 takes two halves. A half is no character, but
a text that is written with escapes may hold one, so such a text is a list of code points. A first
half in front of a second one is not the character that the two make up; it becomes that character
when the text is passed on (`joined`).
-/

namespace PathAssembly.Text

/-- A character, or half of one, by its place among the halves; the first halves come before the
second ones. -/
inductive CodePoint where
  | char (c : Char)
  | half (place : Fin 0x800)
  deriving DecidableEq, Repr

namespace CodePoint

/-- The number. The halves have the numbers that characters leave out. -/
def number : CodePoint → Nat
  | char c => c.toNat
  | half place => 0xd800 + place.val

def ofNumber? (n : Nat) : Option CodePoint :=
  if h : 0xd800 ≤ n ∧ n < 0xe000 then some (half ⟨n - 0xd800, by omega⟩)
  else if n < 0x11_0000 then some (char (Char.ofNat n))
  else none

def char? : CodePoint → Option Char
  | char c => some c
  | half _ => none

def replacement : Char := '\ufffd'

def alone (p : CodePoint) : Char := p.char?.getD replacement

def joined? : CodePoint → CodePoint → Option Char
  | half first, half second =>
    if first.val < 0x400 ∧ 0x400 ≤ second.val then
      some (Char.ofNat (0x1_0000 + first.val * 0x400 + (second.val - 0x400)))
    else none
  | _, _ => none

end CodePoint

def points (s : String) : List CodePoint := s.toList.map .char

def chars? (ps : List CodePoint) : Option (List Char) := ps.mapM CodePoint.char?

/-- Characters, of which two halves in a row that make one up are one. -/
def joinHalves : List CodePoint → List Char
  | p :: q :: rest =>
    match p.joined? q with
    | some c => c :: joinHalves rest
    | none => p.alone :: joinHalves (q :: rest)
  | [p] => [p.alone]
  | [] => []

def joined (ps : List CodePoint) : String := String.ofList (joinHalves ps)

/-- Whether a text does not come after another one in the order of their numbers. -/
def notAfter : List CodePoint → List CodePoint → Bool
  | [], _ => true
  | _ :: _, [] => false
  | p :: ps, q :: qs => p.number < q.number || (p.number == q.number && notAfter ps qs)

theorem CodePoint.ofNumber?_number (p : CodePoint) : ofNumber? p.number = some p := by
  cases p with
  | char c =>
    have hvalid : c.toNat < 0xd800 ∨ 0xdfff < c.toNat ∧ c.toNat < 0x11_0000 := c.valid
    have hchar : ¬ (0xd800 ≤ c.toNat ∧ c.toNat < 0xe000) := by omega
    have hlimit : c.toNat < 0x11_0000 := by omega
    simp [ofNumber?, number, hchar, hlimit]
  | half place =>
    have hhalf : 0xd800 + place.val < 0xe000 := by omega
    simp [ofNumber?, number, hhalf]

@[simp] theorem chars?_map_char (cs : List Char) : chars? (cs.map .char) = some cs := by
  induction cs with
  | nil => rfl
  | cons c rest ih => simp_all [chars?, CodePoint.char?]

@[simp] theorem joinHalves_map_char (cs : List Char) : joinHalves (cs.map .char) = cs := by
  induction cs with
  | nil => rfl
  | cons c rest ih =>
    cases rest with
    | nil => rfl
    | cons d rest =>
      simpa [joinHalves, CodePoint.joined?, CodePoint.alone, CodePoint.char?] using ih

@[simp] theorem joined_points (s : String) : joined (points s) = s := by
  simp [joined, points]

end PathAssembly.Text
