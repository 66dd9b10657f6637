import Mathlib.Data.List.Induction
import PathAssembly.Octets.BigEndian

/-!
# Octets and the numbers that they write

Octets are as many as the width of the number that they write, so that writing the number again
gives the same octets (`ofNat_toNat`). `clear` sets some bits of octets to zero and keeps all
others.
-/

namespace PathAssembly.Octets

/-- Octets without the bits that the octets in the same places name. -/
def clear (bits octets : List UInt8) : List UInt8 :=
  List.zipWith (fun octet bit => octet &&& ~~~bit) octets bits

theorem clear_append {bits octets : List UInt8} (h : octets.length = bits.length)
    (bits' octets' : List UInt8) :
    clear (bits ++ bits') (octets ++ octets') = clear bits octets ++ clear bits' octets' :=
  List.zipWith_append h

theorem and_not_zero (octet : UInt8) : octet &&& ~~~0 = octet := UInt8.and_neg_one

theorem and_not_all (octet : UInt8) : octet &&& ~~~0xff = 0 := UInt8.and_zero

theorem and_not_eq_self_iff {octet bit : UInt8} : octet &&& ~~~bit = octet ↔ octet &&& bit = 0 := by
  constructor
  · intro h
    rw [← h, UInt8.and_assoc, UInt8.not_and_self, UInt8.and_zero]
  · intro h
    have hdistrib : octet &&& (bit ||| ~~~bit) = octet &&& bit ||| octet &&& ~~~bit :=
      UInt8.toBitVec_inj.1 BitVec.and_or_distrib_left
    rw [UInt8.or_not_self, UInt8.and_neg_one, h, UInt8.zero_or] at hdistrib
    exact hdistrib.symm

theorem clear_replicate_zero {octets : List UInt8} {n : Nat} (h : octets.length = n) :
    clear (List.replicate n 0) octets = octets := by
  subst h
  induction octets with
  | nil => rfl
  | cons octet octets ih =>
      rw [List.length_cons, List.replicate_succ, clear, List.zipWith_cons_cons, and_not_zero]
      exact congrArg (octet :: ·) ih

/-- Clearing changes nothing exactly if all bits to be cleared are zero. -/
theorem clear_eq_self_iff {bits octets : List UInt8} (h : octets.length = bits.length) :
    clear bits octets = octets ↔ ∀ pair ∈ octets.zip bits, pair.1 &&& pair.2 = 0 := by
  induction octets generalizing bits with
  | nil => exact iff_of_true rfl fun _ hpair => absurd hpair List.not_mem_nil
  | cons octet octets ih =>
      cases bits with
      | nil => cases h
      | cons bit bits =>
          rw [clear, List.zipWith_cons_cons, List.cons.injEq, and_not_eq_self_iff,
            List.zip_cons_cons, List.forall_mem_cons]
          exact and_congr_right fun _ => ih (Nat.succ.inj h)

theorem toNat_and_not_flags (octet : UInt8) : (octet &&& ~~~0xfc).toNat = octet.toNat % 4 := by
  rw [UInt8.toNat_and]
  exact Nat.and_two_pow_sub_one_eq_mod octet.toNat 2

theorem ofNat_toNat (octets : List UInt8) : ofNat octets.length (toNat octets) = octets := by
  induction octets using List.reverseRecOn with
  | nil => rfl
  | append_singleton octets o ih =>
      have hlt : o.toNat < 256 := o.toNat_lt
      have hquotient : (toNat octets * 256 + o.toNat) / 256 = toNat octets := by omega
      have hrest : UInt8.ofNat (toNat octets * 256 + o.toNat) = o := by
        apply UInt8.toNat_inj.1
        rw [UInt8.toNat_ofNat']
        omega
      rw [List.length_append, List.length_singleton, ofNat, toNat_append_singleton, hquotient, ih,
        hrest]

theorem ofNat_toNat_take {octets : List UInt8} {width : Nat} (h : width ≤ octets.length) :
    ofNat width (toNat (octets.take width)) = octets.take width := by
  have hlength : (octets.take width).length = width := List.length_take_of_le h
  have hnumber := ofNat_toNat (octets.take width)
  rwa [hlength] at hnumber

theorem toNat_lt (octets : List UInt8) : toNat octets < Nat.pow 256 octets.length := by
  induction octets using List.reverseRecOn with
  | nil => exact Nat.one_pos
  | append_singleton octets o ih =>
      have hlt : o.toNat < 256 := o.toNat_lt
      rw [toNat_append_singleton, List.length_append, List.length_singleton]
      change _ < Nat.pow 256 octets.length * 256
      omega

theorem toNat_take_lt (octets : List UInt8) (width : Nat) :
    (toNat (octets.take width) : Int) < Nat.pow 256 width := by
  have hlt := toNat_lt (octets.take width)
  have hle : (octets.take width).length ≤ width := by
    rw [List.length_take]
    exact Nat.min_le_left ..
  exact Int.ofNat_lt.2 (Nat.lt_of_lt_of_le hlt (Nat.pow_le_pow_right (by decide) hle))

theorem toNat_four (a b c d : UInt8) :
    (toNat [a, b, c, d] : Int) = ((a.toNat * 256 + b.toNat) * 256 + c.toNat) * 256 + d.toNat := by
  simp [toNat]

end PathAssembly.Octets
