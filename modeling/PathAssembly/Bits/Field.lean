import PathAssembly.Fault

/-!
# Bit fields

Unsigned fields inside words of any size. Offsets count from the most significant bit, as protocol
documents number them: in a word of 32 bits the field of width 6 at offset 14 holds bits 14 to 19.
Words are integers of any sign and size, in two's complement without end, so that a field is a
quotient and a remainder by powers of two.
-/

namespace PathAssembly

/-- The place of a field in a word of some size, with the offset counted from the highest bit. -/
structure BitField where
  offset : Int
  width : Int
  size : Int := 32
  deriving DecidableEq, Repr

namespace BitField

def Fits (f : BitField) : Prop := 0 < f.width ∧ 0 ≤ f.offset ∧ f.offset + f.width ≤ f.size

instance (f : BitField) : Decidable f.Fits := inferInstanceAs (Decidable (_ ∧ _ ∧ _))

/-- Refuses a field that does not fit, an empty one first. -/
def check (f : BitField) : Except Fault Unit :=
  if f.width ≤ 0 then .error (.emptyField f.width)
  else if f.offset < 0 ∨ f.size < f.offset + f.width then
    .error (.fieldOutsideWord f.offset (f.offset + f.width) f.size)
  else .ok ()

def shift (f : BitField) : Nat := (f.size - f.offset - f.width).toNat

def unit (f : BitField) : Int := Nat.pow 2 f.shift

def capacity (f : BitField) : Int := Nat.pow 2 f.width.toNat

def get (f : BitField) (word : Int) : Int := word >>> f.shift % f.capacity

/-- The word with the value of a field replaced; the field and the value must fit. -/
def set (f : BitField) (word value : Int) : Int := word + (value - f.get word) * f.unit

def checkValue (f : BitField) (value : Int) : Except Fault Unit :=
  if value < 0 ∨ f.capacity ≤ value then .error (.valueTooWide value f.width) else .ok ()

def read (f : BitField) (word : Int) : Except Fault Int := do
  f.check
  return f.get word

def write (f : BitField) (word value : Int) : Except Fault Int := do
  f.check
  f.checkValue value
  return f.set word value

def bit (offset : Int) (size : Int := 32) : BitField := ⟨offset, 1, size⟩

def test (f : BitField) (word : Int) : Bool := f.get word == 1

def assign (f : BitField) (word : Int) (on : Bool) : Int := f.set word (if on then 1 else 0)

theorem check_eq_ok_iff {f : BitField} : f.check = .ok () ↔ f.Fits := by
  unfold check Fits
  split
  · simp; omega
  · split
    · simp; omega
    · simp; omega

theorem checkValue_eq_ok_iff {f : BitField} {value : Int} :
    f.checkValue value = .ok () ↔ 0 ≤ value ∧ value < f.capacity := by
  unfold checkValue
  split
  · simp; omega
  · simp; omega

theorem unit_pos (f : BitField) : 0 < f.unit := Int.natCast_pos.2 (Nat.pow_pos (by decide))

theorem capacity_pos (f : BitField) : 0 < f.capacity := Int.natCast_pos.2 (Nat.pow_pos (by decide))

theorem get_eq_ediv_emod (f : BitField) (word : Int) : f.get word = word / f.unit % f.capacity :=
  congrArg (· % f.capacity) (Int.shiftRight_eq_div_pow word f.shift)

theorem get_nonneg (f : BitField) (word : Int) : 0 ≤ f.get word :=
  Int.emod_nonneg _ (Int.ne_of_gt f.capacity_pos)

theorem get_lt (f : BitField) (word : Int) : f.get word < f.capacity :=
  Int.emod_lt_of_pos _ f.capacity_pos

end BitField

end PathAssembly
