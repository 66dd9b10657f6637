import PathAssembly.Header.Basic
import PathAssembly.Path.Interface
import PathAssembly.Segment.Range

/-!
# Legs of a path

A leg is the part of one segment that a path uses, as it goes into a header.

Routers fold the code of each hop field into the segment identifier that a packet carries. The
identifier in the info field is the one that the first hop field of the leg expects. It is that of
the origin with the codes of all entries folded in that stand before the first hop field in
construction order: the entries that the leg leaves out at the origin, and on a reversed leg all
used entries but the first one in path order.
-/

namespace PathAssembly

/-- The part of one segment that a path uses, in path order, and the entries that it leaves out at
the origin. -/
structure Leg where
  info : SegmentInfo
  reversed : Bool
  skipped : List AsEntry
  entries : List AsEntry

namespace Leg

def ofRange {μ : Type} (s : PathSegment μ) (r : SegmentRange) : Except Fault Leg := do
  let origin := if r.reversed then r.last else r.start
  let entries ← r.entries s
  return { info := s.info, reversed := r.reversed, skipped := s.entries.take origin.toNat, entries }

/-- A segment identifier with the codes of entries folded in. -/
def fold (segId : UInt16) (entries : List AsEntry) : UInt16 :=
  entries.foldl (fun segId entry => segId ^^^ entry.hop.mac.chain) segId

theorem fold_append (segId : UInt16) (first second : List AsEntry) :
    fold segId (first ++ second) = fold (fold segId first) second := List.foldl_append

/-- The segment identifier that the first hop field expects. -/
def segId (leg : Leg) : UInt16 :=
  fold (fold leg.info.segId leg.skipped) (if leg.reversed then leg.entries.tail else [])

def infoField (leg : Leg) : InfoField :=
  { constructionDirection := !leg.reversed
    segId := leg.segId.toNat
    timestamp := leg.info.timestamp.toNat }

def hops (leg : Leg) : List WireHop := leg.entries.map fun entry => .ofHopField entry.hop

def link (reversed : Bool) (here there : AsEntry) : List PathInterface :=
  if reversed then
    [⟨here.isdAs, here.hop.ingress.toNat⟩, ⟨there.isdAs, there.hop.egress.toNat⟩]
  else
    [⟨here.isdAs, here.hop.egress.toNat⟩, ⟨there.isdAs, there.hop.ingress.toNat⟩]

def interfaces (leg : Leg) : List PathInterface :=
  (leg.entries.zip leg.entries.tail).flatMap fun (here, there) => link leg.reversed here there

/-- The packet sizes that the entries allow; a link of entry that states none allows any. -/
def mtus (leg : Leg) : List Int :=
  leg.entries.flatMap fun entry =>
    (entry.mtu.toNat : Int) ::
      if entry.ingressMtu = 0 then [] else [(entry.ingressMtu.toNat : Int)]

def expirations (leg : Leg) : List Int :=
  leg.entries.map fun entry => hopExpiration leg.info.timestamp.toNat entry.hop.expiry.toNat

end Leg

def PathHeader.ofLegs (lengths : List Int) (legs : List Leg) : PathHeader :=
  { lengths, infos := legs.map Leg.infoField, hops := legs.flatMap Leg.hops }

end PathAssembly
