import PathAssembly.Bits.Field

/-!
# Bit fields within bounds

A field makes sense in a word of any size, but a number of too many bits cannot be held. Reading
needs a number as wide as the field, and writing one that reaches from the start of the field to the
end of the word. Below the bound reading and writing are those of `BitField.read` and
`BitField.write`.
-/

namespace PathAssembly.BitField

/-- The number of bits from which on a number cannot be held. -/
def maxBits : Int := 0x1_0000_0000

def checkBits (bits : Int) : Except Fault Unit :=
  if bits < maxBits then .ok () else .error .tooManyBits

def readBounded (f : BitField) (word : Int) : Except Fault Int := do
  f.check
  checkBits f.width
  f.read word

/-- The word with the value of a field replaced, if it can be held from the field on. A value too
wide for the field is refused first. -/
def writeBounded (f : BitField) (word value : Int) : Except Fault Int := do
  f.check
  checkBits f.width
  f.checkValue value
  checkBits (f.size - f.offset)
  f.write word value

theorem checkBits_eq_ok_iff {bits : Int} : checkBits bits = .ok () ↔ bits < maxBits := by
  unfold checkBits
  split <;> simp_all

theorem readBounded_eq_read {f : BitField} (word : Int) (h : f.width < maxBits) :
    f.readBounded word = f.read word := by
  unfold readBounded read
  rw [checkBits_eq_ok_iff.2 h]
  cases f.check <;> rfl

/-- A field that starts less than the bound in front of the end of its word is written as it
is. -/
theorem writeBounded_eq_write {f : BitField} (word value : Int)
    (h : f.size - f.offset < maxBits) : f.writeBounded word value = f.write word value := by
  unfold writeBounded write
  rw [checkBits_eq_ok_iff.2 h]
  cases hc : f.check with
  | error fault => rfl
  | ok _ =>
    have fits := check_eq_ok_iff.1 hc
    rw [checkBits_eq_ok_iff.2 (by unfold Fits at fits; omega)]
    cases f.checkValue value <;> rfl

end PathAssembly.BitField
