import Mathlib.Data.Int.Bitwise
import PathAssembly.Proofs.Bits.Independence

/-!
# Fields under masks

Reading and setting a field is arithmetic here, whereas on a machine it is shifting and masking.
Both are the same on every integer: a word is its bits, in two's complement without end, and setting
a field exchanges those of the field and no other ones (`testBit_set`).
-/

namespace PathAssembly

namespace BitField

/-- A bit is the parity of what is left of a word without the bits behind it. -/
theorem testBit_eq (word : Int) (i : Nat) :
    word.testBit i = decide (word / (2 ^ i : Nat) % 2 = 1) := by
  have hpos : (0 : Int) < (2 ^ i : Nat) := Int.natCast_pos.2 (Nat.two_pow_pos i)
  cases word with
  | ofNat m =>
      change m.testBit i = _
      rw [Nat.testBit_eq_decide_div_mod_eq, Int.ofNat_eq_natCast, ← Int.natCast_ediv]
      exact decide_eq_decide.2 (by omega)
  | negSucc m =>
      change (!m.testBit i) = _
      have hquotient : (m : Int).ediv (2 ^ i : Nat) = (m / 2 ^ i : Nat) := Int.natCast_ediv ..
      rw [Nat.testBit_eq_decide_div_mod_eq, Int.negSucc_ediv m hpos, hquotient, ← decide_not]
      exact decide_eq_decide.2 (by omega)

theorem eq_of_testBit_eq {x y : Int} (h : ∀ i, x.testBit i = y.testBit i) : x = y := by
  -- far enough from the lowest bit there is nothing but the sign
  have hsign : ∀ m n : Nat, ∃ i, m.testBit i = false ∧ n.testBit i = false := fun m n =>
    ⟨m + n, Nat.testBit_lt_two_pow (Nat.lt_of_le_of_lt (Nat.le_add_right m n) Nat.lt_two_pow_self),
      Nat.testBit_lt_two_pow (Nat.lt_of_le_of_lt (Nat.le_add_left n m) Nat.lt_two_pow_self)⟩
  cases x with
  | ofNat m =>
      cases y with
      | ofNat n => exact congrArg Int.ofNat (Nat.eq_of_testBit_eq h)
      | negSucc n =>
          obtain ⟨i, hm, hn⟩ := hsign m n
          have hi : m.testBit i = !n.testBit i := h i
          rw [hm, hn] at hi
          cases hi
  | negSucc m =>
      cases y with
      | ofNat n =>
          obtain ⟨i, hm, hn⟩ := hsign m n
          have hi : (!m.testBit i) = n.testBit i := h i
          rw [hm, hn] at hi
          cases hi
      | negSucc n =>
          exact congrArg Int.negSucc (Nat.eq_of_testBit_eq fun i => Bool.not_inj (h i))

theorem testBit_ediv (word : Int) (s i : Nat) :
    (word / (2 ^ s : Nat)).testBit i = word.testBit (s + i) := by
  rw [testBit_eq, testBit_eq, Int.ediv_ediv_of_nonneg (Int.natCast_nonneg _), ← Int.natCast_mul,
    ← Nat.pow_add]

/-- What is added from some bit on does not change the bits behind it. -/
theorem testBit_add_mul (word k : Int) {s i : Nat} (h : i < s) :
    (word + k * (2 ^ s : Nat)).testBit i = word.testBit i := by
  have hpow : ((2 ^ s : Nat) : Int) = (2 ^ (s - i - 1) : Nat) * 2 * (2 ^ i : Nat) := by
    have hs : s - i - 1 + 1 + i = s := by omega
    have hexact : 2 ^ (s - i - 1) * 2 * 2 ^ i = 2 ^ s := by rw [← Nat.pow_succ, ← Nat.pow_add, hs]
    exact_mod_cast hexact.symm
  have hne : ((2 ^ i : Nat) : Int) ≠ 0 := Int.natCast_ne_zero.2 (Nat.two_pow_pos i).ne'
  rw [testBit_eq, testBit_eq, hpow, ← Int.mul_assoc, ← Int.mul_assoc,
    Int.add_mul_ediv_right _ _ hne, Int.add_mul_emod_self_right]

theorem testBit_mul (word : Int) (s i : Nat) :
    (word * (2 ^ s : Nat)).testBit i = (decide (s ≤ i) && word.testBit (i - s)) := by
  rcases Nat.lt_or_ge i s with hlt | hle
  · rw [← Int.zero_add (word * _), testBit_add_mul 0 word hlt, decide_eq_false (Nat.not_le.2 hlt)]
    rw [testBit_eq, Int.zero_ediv]
    rfl
  · obtain ⟨j, rfl⟩ := Nat.exists_eq_add_of_le hle
    have hne : ((2 ^ s : Nat) : Int) ≠ 0 := Int.natCast_ne_zero.2 (Nat.two_pow_pos s).ne'
    rw [← testBit_ediv, Int.mul_ediv_cancel _ hne, Nat.add_sub_cancel_left,
      decide_eq_true (Nat.le_add_right s j), Bool.true_and]

theorem testBit_of_lt_capacity {f : BitField} {value : Int} {i : Nat} (h0 : 0 ≤ value)
    (h1 : value < f.capacity) (hi : f.width.toNat ≤ i) : value.testBit i = false := by
  have hle : f.capacity ≤ (2 ^ i : Nat) :=
    Int.ofNat_le.2 (Nat.pow_le_pow_right (by decide) hi)
  rw [testBit_eq, Int.ediv_eq_zero_of_lt h0 (Int.lt_of_lt_of_le h1 hle)]
  rfl

theorem testBit_get (f : BitField) (word : Int) (i : Nat) :
    (f.get word).testBit i = (decide (i < f.width.toNat) && word.testBit (f.shift + i)) := by
  rcases Nat.lt_or_ge i f.width.toNat with hlt | hle
  · have hsplit : word / f.unit = f.get word + word / f.unit / f.capacity * f.capacity := by
      rw [get_eq_ediv_emod, Int.mul_comm]
      exact (Int.emod_add_mul_ediv _ _).symm
    rw [decide_eq_true hlt, Bool.true_and, ← testBit_ediv]
    change _ = (word / f.unit).testBit i
    rw [hsplit]
    exact (testBit_add_mul (f.get word) _ hlt).symm
  · rw [testBit_of_lt_capacity (f.get_nonneg word) (f.get_lt word) hle,
      decide_eq_false (Nat.not_lt.2 hle), Bool.false_and]

/-- Setting a field exchanges its bits and no other ones. -/
theorem testBit_set (f : BitField) (word : Int) {value : Int} (h0 : 0 ≤ value)
    (h1 : value < f.capacity) (i : Nat) :
    (f.set word value).testBit i
      = if f.shift ≤ i ∧ i < f.shift + f.width.toNat then value.testBit (i - f.shift)
        else word.testBit i := by
  rcases Nat.lt_or_ge i f.shift with hbehind | hle
  · rw [if_neg (by omega)]
    exact testBit_add_mul word _ hbehind
  obtain ⟨j, rfl⟩ := Nat.exists_eq_add_of_le hle
  rcases Nat.lt_or_ge j f.width.toNat with hinside | habove
  · have hget := testBit_get f (f.set word value) j
    rw [get_set f word h0 h1, decide_eq_true hinside, Bool.true_and] at hget
    rw [if_pos (by omega), Nat.add_sub_cancel_left, hget]
  · -- above the field nothing changes
    obtain ⟨k, rfl⟩ := Nat.exists_eq_add_of_le habove
    have hspan : f.unit * f.capacity = (2 ^ (f.shift + f.width.toNat) : Nat) := by
      rw [Nat.pow_add, Int.natCast_mul]
      rfl
    have hkept := above_set f word h0 h1
    rw [above, above, hspan] at hkept
    rw [if_neg (by omega), ← Nat.add_assoc, ← testBit_ediv, hkept, testBit_ediv]

/-- The bits of a field, at their place in the word. -/
def mask (f : BitField) : Int := (f.capacity - 1) <<< f.shift

theorem testBit_shiftLeft (word : Int) (s i : Nat) :
    (word <<< s).testBit i = (decide (s ≤ i) && word.testBit (i - s)) := by
  rw [Int.shiftLeft_eq']
  exact testBit_mul word s i

theorem testBit_capacity_sub_one (f : BitField) (i : Nat) :
    (f.capacity - 1).testBit i = decide (i < f.width.toNat) := by
  have hcapacity : f.capacity - 1 = ((2 ^ f.width.toNat - 1 : Nat) : Int) := by
    rw [Int.natCast_sub (Nat.two_pow_pos _)]
    rfl
  rw [hcapacity]
  exact Nat.testBit_two_pow_sub_one _ _

/-- Reading a field is shifting it down and masking it. -/
theorem get_eq_land (f : BitField) (word : Int) :
    f.get word = (word >>> f.shift).land (f.capacity - 1) := by
  apply eq_of_testBit_eq
  intro i
  have hshift : word >>> f.shift = word / (2 ^ f.shift : Nat) :=
    Int.shiftRight_eq_div_pow word f.shift
  rw [testBit_get, Int.testBit_land, hshift, testBit_ediv, testBit_capacity_sub_one, Bool.and_comm]

/-- Setting a field is masking it out and putting the value in its place. -/
theorem set_eq_lor (f : BitField) (word : Int) {value : Int} (h0 : 0 ≤ value)
    (h1 : value < f.capacity) :
    f.set word value = (word.land f.mask.lnot).lor (value <<< f.shift) := by
  apply eq_of_testBit_eq
  intro i
  rw [testBit_set f word h0 h1, Int.testBit_lor, Int.testBit_land, Int.testBit_lnot, mask,
    testBit_shiftLeft, testBit_shiftLeft, testBit_capacity_sub_one]
  split
  next hinside =>
    rw [decide_eq_true hinside.1, decide_eq_true (by omega : i - f.shift < f.width.toNat)]
    simp
  next houtside =>
    rcases Nat.lt_or_ge i f.shift with hbehind | hle
    · rw [decide_eq_false (Nat.not_le.2 hbehind)]
      simp
    · have habove : f.width.toNat ≤ i - f.shift := by omega
      rw [decide_eq_false (Nat.not_lt.2 habove), testBit_of_lt_capacity h0 h1 habove]
      simp

end BitField

end PathAssembly
