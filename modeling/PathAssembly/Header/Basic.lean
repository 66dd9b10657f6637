import PathAssembly.Header.Field

/-!
# Path headers

The header of a path: a meta word, an info field for every used segment slot and the hop fields of
all segments in path order.

    meta word    4 octets   current info:2 current hop:6 reserved:6 three segment lengths of 6 bits

`PathHeader.encode` writes a header and `PathHeader.decode` reads one from the start of octets; what
stands behind the last hop field is not part of it.
-/

namespace PathAssembly

structure PathHeader where
  lengths : List Int
  infos : List InfoField
  hops : List WireHop
  currInf : Int := 0
  currHf : Int := 0
  deriving DecidableEq, Repr

namespace PathHeader

def metaSize : Nat := 4

def maxSegments : Nat := 3

def maxHops : Nat := 63

def currInfField : BitField := ⟨0, 2, 32⟩

def currHfField : BitField := ⟨2, 6, 32⟩

def lengthField (slot : Nat) : BitField := ⟨14 + 6 * slot, 6, 32⟩

def segmentCount (lengths : List Int) : Nat := lengths.countP (0 < ·)

def hopCount : List Int → Int
  | [] => 0
  | length :: rest => length + hopCount rest

def announcedLength (lengths : List Int) : Nat :=
  metaSize + segmentCount lengths * InfoField.size + (hopCount lengths).toNat * WireHop.size

def writeLengths (slot : Nat) (word : Int) : List Int → Except Fault Int
  | [] => .ok word
  | length :: rest => do
    if (maxHops : Int) < length then throw (.lengthTooLarge slot length)
    let word ← (lengthField slot).write word length
    writeLengths (slot + 1) word rest

def encodeMeta (lengths : List Int) (currInf currHf : Int) : Except Fault (List UInt8) := do
  if maxSegments < lengths.length then throw (.tooManyLengths lengths.length)
  let word ← currInfField.write 0 currInf
  let word ← currHfField.write word currHf
  let word ← writeLengths 0 word lengths
  return Octets.ofNat metaSize word.toNat

/-- The octets of a header, whose fields must be as many as its lengths say. -/
def encode (p : PathHeader) : Except Fault (List UInt8) := do
  if p.infos.length ≠ segmentCount p.lengths then
    throw (.infoFieldCount (segmentCount p.lengths) p.infos.length)
  if (p.hops.length : Int) ≠ hopCount p.lengths then
    throw (.hopFieldCount (hopCount p.lengths) p.hops.length)
  let start ← encodeMeta p.lengths p.currInf p.currHf
  let infos ← p.infos.mapM InfoField.encode
  let hops ← p.hops.mapM WireHop.encode
  return start ++ infos.flatten ++ hops.flatten

def metaWord (raw : List UInt8) : Int := Octets.toNat (raw.take metaSize)

def segmentLengths (raw : List UInt8) : Except Fault (List Int) :=
  if raw.length < metaSize then .error (.headerTooShort raw.length)
  else .ok ((List.range maxSegments).map fun slot => (lengthField slot).get (metaWord raw))

/-- Whether a used segment slot stands behind an unused one. -/
def hasGap : List Int → Bool
  | [] => false
  | length :: rest => (length == 0 && rest.any (· != 0)) || hasGap rest

def decode (raw : List UInt8) : Except Fault PathHeader := do
  let lengths ← segmentLengths raw
  if hasGap lengths then throw (.segmentGap lengths)
  let announced := announcedLength lengths
  if raw.length < announced then throw (.headerTruncated raw.length announced)
  let count := segmentCount lengths
  let infos ← Octets.readFields InfoField.decode InfoField.size InfoField.size raw count metaSize
  -- only the numbers of a hop field are asked for: a code takes the octets that there are
  let hops ← Octets.readFields WireHop.decode WireHop.numbersSize WireHop.size raw
    (hopCount lengths).toNat (metaSize + count * InfoField.size)
  return {
    lengths, infos, hops
    currInf := currInfField.get (metaWord raw)
    currHf := currHfField.get (metaWord raw) }

def segmentHops (p : PathHeader) (slot : Nat) : Except Fault (List WireHop) :=
  match p.lengths[slot]? with
  | some length => .ok ((p.hops.drop (hopCount (p.lengths.take slot)).toNat).take length.toNat)
  | none => .error .outside

end PathHeader

end PathAssembly
