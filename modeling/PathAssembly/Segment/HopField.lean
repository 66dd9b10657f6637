import PathAssembly.Fault

/-!
# Hop fields

The authenticated traversal of one AS in construction direction. A hop field that exists fits its
wire format: building one checks every width, the interfaces first.
-/

namespace PathAssembly

/-- A natural number below `2 ^ bits`, under the name that a refusal gives it. -/
def unsigned (name : String) (bits : Nat) (value : Int) : Except Fault Nat :=
  if value < 0 ∨ Nat.pow 2 bits ≤ value then .error (.unsignedTooWide name bits value)
  else .ok value.toNat

def macLength : Nat := 6

structure Mac where
  octets : List UInt8
  length_eq : octets.length = macLength
  deriving DecidableEq, Repr

namespace Mac

def ofOctets (octets : List UInt8) : Except Fault Mac :=
  if h : octets.length = macLength then .ok ⟨octets, h⟩ else .error (.macLength octets.length)

/-- The first two octets as a number, which routers fold into segment identifiers. -/
def chain (mac : Mac) : UInt16 :=
  match mac.octets with
  | a :: b :: _ => UInt16.ofNat (a.toNat * 256 + b.toNat)
  | _ => 0

end Mac

/-- The traversal of one AS. An interface is 0 where the segment starts or ends, and the lifetime
counts units of 1/256 day, less one. -/
structure HopField where
  ingress : UInt16
  egress : UInt16
  mac : Mac
  expiry : UInt8
  deriving DecidableEq, Repr

def HopField.ofValues (ingress egress : Int) (mac : List UInt8) (expiry : Int) :
    Except Fault HopField := do
  let ingress ← unsigned "ingress" 16 ingress
  let egress ← unsigned "egress" 16 egress
  let expiry ← unsigned "expiry_delta" 8 expiry
  let mac ← Mac.ofOctets mac
  return ⟨UInt16.ofNat ingress, UInt16.ofNat egress, mac, UInt8.ofNat expiry⟩

def hopExpiration (timestamp expiry : Int) : Int := timestamp + (1 + expiry) * 24 * 60 * 60 / 256

end PathAssembly
