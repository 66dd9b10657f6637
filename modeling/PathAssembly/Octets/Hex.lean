/-!
# Hexadecimal octets

Octets as pairs of hexadecimal digits. Digits of either case are read, and blanks may stand between
the pairs but not inside one; digits are written in lower case without blanks.
-/

namespace PathAssembly.Octets

def hexDigit? (c : Char) : Option Nat :=
  if '0' ≤ c ∧ c ≤ '9' then some (c.toNat - '0'.toNat)
  else if 'a' ≤ c ∧ c ≤ 'f' then some (c.toNat - 'a'.toNat + 10)
  else if 'A' ≤ c ∧ c ≤ 'F' then some (c.toNat - 'A'.toNat + 10)
  else none

/-- Whether a character may stand between two pairs of digits. -/
def isGap (c : Char) : Bool := c == ' ' || (9 ≤ c.toNat && c.toNat ≤ 13)

def ofHex? : List Char → Option (List UInt8)
  | [] => some []
  | [c] => if isGap c then some [] else none
  | c :: c' :: rest =>
    if isGap c then ofHex? (c' :: rest)
    else do
      let high ← hexDigit? c
      let low ← hexDigit? c'
      return UInt8.ofNat (high * 16 + low) :: (← ofHex? rest)

def hexPair (o : UInt8) : List Char :=
  [Nat.digitChar (o.toNat / 16), Nat.digitChar (o.toNat % 16)]

def toHex (octets : List UInt8) : String := String.ofList (octets.flatMap hexPair)

theorem hexDigit?_digitChar {n : Nat} (h : n < 16) : hexDigit? (Nat.digitChar n) = some n := by
  have : ∀ m : Fin 16, hexDigit? (Nat.digitChar m) = some m.val := by decide
  exact this ⟨n, h⟩

theorem isGap_digitChar {n : Nat} (h : n < 16) : isGap (Nat.digitChar n) = false := by
  have : ∀ m : Fin 16, isGap (Nat.digitChar m) = false := by decide
  exact this ⟨n, h⟩

theorem ofHex?_flatMap_hexPair (octets : List UInt8) :
    ofHex? (octets.flatMap hexPair) = some octets := by
  induction octets with
  | nil => rfl
  | cons o rest ih =>
    have hlt : o.toNat < 256 := o.toNat_lt
    have hhigh : o.toNat / 16 < 16 := by omega
    have hlow : o.toNat % 16 < 16 := by omega
    have hsum : UInt8.ofNat (o.toNat / 16 * 16 + o.toNat % 16) = o := by
      rw [show o.toNat / 16 * 16 + o.toNat % 16 = o.toNat by omega]
      exact UInt8.ofNat_toNat
    simp only [List.flatMap_cons, hexPair, List.cons_append, List.nil_append, ofHex?,
      isGap_digitChar hhigh, hexDigit?_digitChar hhigh, hexDigit?_digitChar hlow, ih, hsum,
      Bool.false_eq_true, if_false, Option.bind_eq_bind, Option.bind_some, Option.pure_def]

end PathAssembly.Octets
