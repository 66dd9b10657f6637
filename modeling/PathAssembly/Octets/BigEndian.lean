import PathAssembly.Fault

/-!
# Big-endian numbers

Natural numbers as octets, the highest first. Writing a number in a given width and reading it
back loses nothing as long as the number fits (`toNat_ofNat`). Records of numbers are read at places
in octets; a place with too few octets behind it is refused.
-/

namespace PathAssembly.Octets

/-- The lowest `width` octets of a number, the highest first. -/
def ofNat : (width : Nat) → Nat → List UInt8
  | 0, _ => []
  | width + 1, n => ofNat width (n / 256) ++ [UInt8.ofNat n]

def toNat (octets : List UInt8) : Nat :=
  octets.foldl (fun n o => n * 256 + o.toNat) 0

/-- The octets of an integer, which must be natural and fit. -/
def pack (width : Nat) (value : Int) : Except Fault (List UInt8) :=
  if 0 ≤ value ∧ value < Nat.pow 256 width then .ok (ofNat width value.toNat)
  else .error .unencodable

/-- What `decode` reads from a place on, where there must be the octets that it needs. -/
def readAt {α : Type} (decode : List UInt8 → α) (needed : Nat) (octets : List UInt8)
    (place : Nat) : Except Fault α :=
  if octets.length < place + needed then .error .octetsMissing
  else .ok (decode (octets.drop place))

/-- What `decode` reads at `count` places, the first of them given and each of the others `size`
octets behind the one before it. -/
def readFields {α : Type} (decode : List UInt8 → α) (needed size : Nat) (octets : List UInt8) :
    (count : Nat) → (place : Nat) → Except Fault (List α)
  | 0, _ => .ok []
  | count + 1, place => do
    let field ← readAt decode needed octets place
    return field :: (← readFields decode needed size octets count (place + size))

@[simp] theorem length_ofNat (width n : Nat) : (ofNat width n).length = width := by
  induction width generalizing n with
  | zero => rfl
  | succ width ih => simp [ofNat, ih]

theorem toNat_append_singleton (octets : List UInt8) (o : UInt8) :
    toNat (octets ++ [o]) = toNat octets * 256 + o.toNat := by
  simp [toNat]

theorem toNat_ofNat {width n : Nat} (h : n < Nat.pow 256 width) : toNat (ofNat width n) = n := by
  induction width generalizing n with
  | zero =>
    have hn : n = 0 := Nat.lt_one_iff.1 h
    rw [hn]
    rfl
  | succ width ih =>
    have hn : n < Nat.pow 256 width * 256 := h
    have hd : n / 256 < Nat.pow 256 width := Nat.div_lt_of_lt_mul (by rwa [Nat.mul_comm])
    have hm : (UInt8.ofNat n).toNat = n % 256 := UInt8.toNat_ofNat'
    rw [ofNat, toNat_append_singleton, ih hd, hm]
    exact Nat.div_add_mod' n 256

end PathAssembly.Octets
