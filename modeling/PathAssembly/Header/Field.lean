import PathAssembly.Bits.Field
import PathAssembly.Octets.BigEndian
import PathAssembly.Segment.HopField

/-!
# Fields of a path header

The info field of a segment and the hop field of an AS as a header holds them. All numbers are
big-endian:

    info field   8 octets   flags:8 (peer at bit 6, direction at bit 7) reserved:8 identifier:16
                            timestamp:32
    hop field   12 octets   flags:8 (ingress alert at bit 6, egress alert at bit 7) expiry:8
                            ingress:16 egress:16 code:48

Values are unchecked until they are encoded. Decoding reads any octets and drops the reserved bits.
-/

namespace PathAssembly

/-- The info field of a segment, with the segment identifier at the first hop. -/
structure InfoField where
  constructionDirection : Bool
  segId : Int
  timestamp : Int
  peer : Bool := false
  deriving DecidableEq, Repr

namespace InfoField

def size : Nat := 8

def peerBit : BitField := .bit 6

def directionBit : BitField := .bit 7

def segIdField : BitField := ⟨16, 16, 32⟩

def encode (f : InfoField) : Except Fault (List UInt8) := do
  let flags := directionBit.assign (peerBit.assign 0 f.peer) f.constructionDirection
  let word ← segIdField.write flags f.segId
  let timestamp ← Octets.pack 4 f.timestamp
  return Octets.ofNat 4 word.toNat ++ timestamp

def decode (octets : List UInt8) : InfoField :=
  let word : Int := Octets.toNat (octets.take 4)
  { constructionDirection := directionBit.test word
    segId := segIdField.get word
    timestamp := Octets.toNat ((octets.drop 4).take 4)
    peer := peerBit.test word }

end InfoField

/-- The hop field of an AS. Entry and exit are those in construction direction. -/
structure WireHop where
  ingress : Int
  egress : Int
  mac : List UInt8
  expiry : Int
  ingressAlert : Bool := false
  egressAlert : Bool := false
  deriving DecidableEq, Repr

namespace WireHop

def size : Nat := 12

def numbersSize : Nat := 6

def ingressBit : BitField := .bit 6 8

def egressBit : BitField := .bit 7 8

def encode (h : WireHop) : Except Fault (List UInt8) := do
  let mac ← Mac.ofOctets h.mac
  let flags := egressBit.assign (ingressBit.assign 0 h.ingressAlert) h.egressAlert
  let expiry ← Octets.pack 1 h.expiry
  let ingress ← Octets.pack 2 h.ingress
  let egress ← Octets.pack 2 h.egress
  return Octets.ofNat 1 flags.toNat ++ expiry ++ ingress ++ egress ++ mac.octets

def decode (octets : List UInt8) : WireHop :=
  let flags : Int := Octets.toNat (octets.take 1)
  { ingress := Octets.toNat ((octets.drop 2).take 2)
    egress := Octets.toNat ((octets.drop 4).take 2)
    mac := (octets.drop 6).take 6
    expiry := Octets.toNat ((octets.drop 1).take 1)
    ingressAlert := ingressBit.test flags
    egressAlert := egressBit.test flags }

def ofHopField (h : HopField) : WireHop :=
  { ingress := h.ingress.toNat, egress := h.egress.toNat, mac := h.mac.octets
    expiry := h.expiry.toNat }

end WireHop

end PathAssembly
