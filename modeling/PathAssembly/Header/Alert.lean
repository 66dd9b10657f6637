import PathAssembly.Header.Basic

/-!
# Router alerts

A router hands a packet whose alert flag names its interface to the local control plane. Setting a
flag changes one octet of a header and leaves the flags that are set already.
-/

namespace PathAssembly

namespace PathHeader

def hopOffset (raw : List UInt8) (index : Int) : Except Fault Nat := do
  let lengths ← segmentLengths raw
  if index < 0 ∨ hopCount lengths ≤ index then throw (.noHopField index lengths)
  return metaSize + segmentCount lengths * InfoField.size + index.toNat * WireHop.size

/-- The place of the flags of a hop field, which come first. -/
def flagsOffset (raw : List UInt8) (index : Int) : Except Fault Nat := hopOffset raw index

def raiseFlags (flags : UInt8) (ingress egress : Bool) : UInt8 :=
  let word : Int := flags.toNat
  let word := if ingress then WireHop.ingressBit.assign word true else word
  let word := if egress then WireHop.egressBit.assign word true else word
  UInt8.ofNat word.toNat

def setAlerts (raw : List UInt8) (index : Int) (ingress egress : Bool) :
    Except Fault (List UInt8) := do
  let place ← flagsOffset raw index
  match raw[place]? with
  | some flags => return raw.set place (raiseFlags flags ingress egress)
  | none => throw .outside

end PathHeader

end PathAssembly
