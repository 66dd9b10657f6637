import Mathlib.Tactic.Ring
import PathAssembly.Bits.Field
import PathAssembly.Proofs.Outcome

/-!
# Independence of bit fields

A field that is set reads back, fields without a common bit do not notice each other, and a word
stays within its size. All of it follows from two facts: setting a field changes the quotient of the
word by the unit of the field by a known amount, and leaves the quotient by what lies above the
field alone.
-/

namespace PathAssembly

namespace BitField

/-- Fields of one word without a common bit. -/
def Apart (f g : BitField) : Prop :=
  f.size = g.size ∧ (f.offset + f.width ≤ g.offset ∨ g.offset + g.width ≤ f.offset)

instance (f g : BitField) : Decidable (f.Apart g) := inferInstanceAs (Decidable (_ ∧ _))

theorem Apart.symm {f g : BitField} (h : f.Apart g) : g.Apart f := ⟨h.1.symm, h.2.symm⟩

/-- The word above a field, whatever the field holds. -/
def above (f : BitField) (word : Int) : Int := word / (f.unit * f.capacity)

theorem span_pos (f : BitField) : 0 < f.unit * f.capacity := Int.mul_pos f.unit_pos f.capacity_pos

/-- A word is what lies above a field, the field, and what lies behind it. -/
theorem above_add_get_add (f : BitField) (word : Int) :
    f.above word * (f.unit * f.capacity) + f.get word * f.unit + word % f.unit = word := by
  have hunit := Int.mul_ediv_add_emod word f.unit
  have hfield := Int.mul_ediv_add_emod (word / f.unit) f.capacity
  have habove : f.above word = word / f.unit / f.capacity :=
    (Int.ediv_ediv_of_nonneg (Int.le_of_lt f.unit_pos)).symm
  rw [habove, get_eq_ediv_emod]
  calc word / f.unit / f.capacity * (f.unit * f.capacity)
        + word / f.unit % f.capacity * f.unit + word % f.unit
      = f.unit * (f.capacity * (word / f.unit / f.capacity) + word / f.unit % f.capacity)
        + word % f.unit := by ring
    _ = word := by rw [hfield, hunit]

/-- What lies behind a field fits under it. -/
theorem get_mul_unit_add_lt (f : BitField) (word : Int) {value : Int} (h : value < f.capacity) :
    value * f.unit + word % f.unit < f.unit * f.capacity := by
  have hrest := Int.emod_lt_of_pos word f.unit_pos
  have hvalue : (value + 1) * f.unit ≤ f.capacity * f.unit :=
    Int.mul_le_mul_of_nonneg_right h (Int.le_of_lt f.unit_pos)
  rw [Int.mul_comm f.unit]
  rw [Int.add_mul, Int.one_mul] at hvalue
  omega

theorem set_ediv_unit (f : BitField) (word value : Int) :
    f.set word value / f.unit = word / f.unit + (value - f.get word) :=
  Int.add_mul_ediv_right _ _ (Int.ne_of_gt f.unit_pos)

theorem above_set (f : BitField) (word : Int) {value : Int} (h0 : 0 ≤ value)
    (h1 : value < f.capacity) : f.above (f.set word value) = f.above word := by
  have hsplit := f.above_add_get_add word
  have hword : f.set word value
      = value * f.unit + word % f.unit + f.above word * (f.unit * f.capacity) := by
    unfold set
    calc word + (value - f.get word) * f.unit
        = f.above word * (f.unit * f.capacity) + f.get word * f.unit + word % f.unit
          + (value - f.get word) * f.unit := by rw [hsplit]
      _ = value * f.unit + word % f.unit + f.above word * (f.unit * f.capacity) := by ring
  have hlow : 0 ≤ value * f.unit + word % f.unit :=
    Int.add_nonneg (Int.mul_nonneg h0 (Int.le_of_lt f.unit_pos))
      (Int.emod_nonneg _ (Int.ne_of_gt f.unit_pos))
  rw [above, hword, Int.add_mul_ediv_right _ _ (Int.ne_of_gt f.span_pos),
    Int.ediv_eq_zero_of_lt hlow (f.get_mul_unit_add_lt word h1), Int.zero_add]

theorem get_set (f : BitField) (word : Int) {value : Int} (h0 : 0 ≤ value)
    (h1 : value < f.capacity) : f.get (f.set word value) = value := by
  have hquotient : word / f.unit + (value - word / f.unit % f.capacity)
      = value + f.capacity * (word / f.unit / f.capacity) := by
    have hfield := Int.mul_ediv_add_emod (word / f.unit) f.capacity
    omega
  rw [get_eq_ediv_emod, set_ediv_unit, get_eq_ediv_emod, hquotient, Int.add_mul_emod_self_left]
  exact Int.emod_eq_of_lt h0 h1

/-- The unit of a field is a multiple of the span of any field behind it. -/
theorem unit_eq_span_mul {f g : BitField} (hf : f.Fits) (hg : g.Fits) (hsize : f.size = g.size)
    (h : g.offset + g.width ≤ f.offset) :
    ∃ n : Nat, g.unit = f.unit * f.capacity * (2 ^ n : Nat) := by
  obtain ⟨hfw, hfo, hfe⟩ := hf
  obtain ⟨hgw, hgo, hge⟩ := hg
  refine ⟨g.shift - (f.shift + f.width.toNat), ?_⟩
  have hshift : g.shift = f.shift + f.width.toNat + (g.shift - (f.shift + f.width.toNat)) := by
    unfold shift
    omega
  have hpow : 2 ^ g.shift
      = 2 ^ f.shift * 2 ^ f.width.toNat * 2 ^ (g.shift - (f.shift + f.width.toNat)) := by
    rw [← Nat.pow_add, ← Nat.pow_add, ← hshift]
  unfold unit capacity
  exact_mod_cast hpow

/-- Setting a field leaves every field apart from it alone. -/
theorem get_set_of_apart {f g : BitField} (hf : f.Fits) (hg : g.Fits) (h : f.Apart g) (word : Int)
    {value : Int} (h0 : 0 ≤ value) (h1 : value < f.capacity) :
    g.get (f.set word value) = g.get word := by
  obtain ⟨hsize, hbehind | hahead⟩ := h
  · -- `g` lies behind `f`: the change is a multiple of all that `g` can hold
    obtain ⟨n, hn⟩ := unit_eq_span_mul hg hf hsize.symm hbehind
    have hset : f.set word value
        = word + (value - f.get word) * (2 ^ n : Nat) * g.capacity * g.unit := by
      rw [set, hn]
      ring
    rw [get_eq_ediv_emod, hset, Int.add_mul_ediv_right _ _ (Int.ne_of_gt g.unit_pos),
      Int.add_mul_emod_self_right, get_eq_ediv_emod]
  · -- `g` lies above `f`, where nothing changes
    obtain ⟨n, hn⟩ := unit_eq_span_mul hf hg hsize hahead
    have habove (x : Int) : x / g.unit = f.above x / (2 ^ n : Nat) := by
      rw [hn, above, Int.ediv_ediv_of_nonneg (Int.le_of_lt f.span_pos)]
    rw [get_eq_ediv_emod, get_eq_ediv_emod, habove, habove, above_set f word h0 h1]

theorem set_mem_range {f : BitField} (hf : f.Fits) (word : Int) (hword : 0 ≤ word)
    (hsize : word < Nat.pow 2 f.size.toNat) {value : Int} (h0 : 0 ≤ value)
    (h1 : value < f.capacity) :
    0 ≤ f.set word value ∧ f.set word value < Nat.pow 2 f.size.toNat := by
  obtain ⟨hfw, hfo, hfe⟩ := hf
  have hspan := f.span_pos
  have habove := above_set f word h0 h1
  have hexp : f.size.toNat = f.shift + f.width.toNat + f.offset.toNat := by
    unfold shift
    omega
  have hpow : ((Nat.pow 2 f.size.toNat : Nat) : Int)
      = f.unit * f.capacity * (2 ^ f.offset.toNat : Nat) := by
    unfold unit capacity
    rw [hexp]
    change ((2 ^ (f.shift + f.width.toNat + f.offset.toNat) : Nat) : Int) = _
    rw [Nat.pow_add, Nat.pow_add]
    push_cast
    rfl
  rw [hpow] at hsize ⊢
  have hlow : 0 ≤ f.above word := Int.ediv_nonneg hword (Int.le_of_lt hspan)
  have hhigh : f.above word < (2 ^ f.offset.toNat : Nat) :=
    Int.ediv_lt_of_lt_mul hspan (by rwa [Int.mul_comm])
  rw [← habove] at hlow hhigh
  constructor
  · by_contra hneg
    have := Int.ediv_neg_of_neg_of_pos (Int.not_le.1 hneg) hspan
    exact absurd hlow (Int.not_le.2 this)
  · rw [Int.mul_comm (f.unit * f.capacity)]
    exact (Int.ediv_lt_iff_lt_mul hspan).1 hhigh

theorem write_eq_ok {f : BitField} (hf : f.Fits) (word : Int) {value : Int} (h0 : 0 ≤ value)
    (h1 : value < f.capacity) : f.write word value = .ok (f.set word value) := by
  rw [write, check_eq_ok_iff.2 hf, checkValue_eq_ok_iff.2 ⟨h0, h1⟩]
  rfl

theorem fits_of_write {f : BitField} {word value written : Int}
    (h : f.write word value = .ok written) : f.Fits ∧ 0 ≤ value ∧ value < f.capacity := by
  rw [write] at h
  obtain ⟨_, hcheck, h⟩ := Outcome.bind_eq_ok_iff.1 h
  obtain ⟨_, hvalue, _⟩ := Outcome.bind_eq_ok_iff.1 h
  exact ⟨check_eq_ok_iff.1 hcheck, checkValue_eq_ok_iff.1 hvalue⟩

end BitField

end PathAssembly
