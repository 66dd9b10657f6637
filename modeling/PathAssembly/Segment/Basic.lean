import PathAssembly.IsdAs.Notation
import PathAssembly.Segment.HopField
import PathAssembly.Segment.StaticInfo

/-!
# Path segments

A segment is a beaconed chain of AS entries in construction order, from the originating AS on.
Segments arrive decoded and verified; building one checks only that its values fit their wire
widths, so that a segment that exists can be encoded. Every segment carries a mark of the caller's
choice that no operation reads.
-/

namespace PathAssembly

/-- One AS on a segment. The packet size of its link of entry is 0 where nothing is said. -/
structure AsEntry where
  isdAs : IsdAs
  isdAs_inRange : isdAs.InRange
  hop : HopField
  mtu : UInt16
  ingressMtu : UInt16
  staticInfo : Option StaticInfo
  deriving DecidableEq

def AsEntry.ofValues (isdAs : IsdAs) (hop : HopField) (mtu ingressMtu : Int)
    (staticInfo : Option StaticInfo) : Except Fault AsEntry :=
  if h : isdAs.InRange then do
    let mtu ← unsigned "mtu" 16 mtu
    let ingressMtu ← unsigned "ingress_mtu" 16 ingressMtu
    return ⟨isdAs, h, hop, UInt16.ofNat mtu, UInt16.ofNat ingressMtu, staticInfo⟩
  else .error (.unsignedTooWide "isd_as" 64 isdAs.value)

/-- The fields of a segment that its info field on the wire carries. The flag is carried as
received: the direction written on the wire is the one in which the segment is traversed. -/
structure SegmentInfo where
  segId : UInt16
  timestamp : UInt32
  constructionDirection : Bool := true
  deriving DecidableEq, Repr

def SegmentInfo.ofValues (segId timestamp : Int) (constructionDirection : Bool) :
    Except Fault SegmentInfo := do
  let segId ← unsigned "seg_id" 16 segId
  let timestamp ← unsigned "timestamp" 32 timestamp
  return ⟨UInt16.ofNat segId, UInt32.ofNat timestamp, constructionDirection⟩

/-- A chain of entries in construction order. -/
structure PathSegment (μ : Type) where
  entries : List AsEntry
  entries_ne_nil : entries ≠ []
  info : SegmentInfo
  type : SegmentType
  mark : μ
  deriving DecidableEq

namespace PathSegment

variable {μ : Type}

def ofEntries (entries : List AsEntry) (info : SegmentInfo) (type : SegmentType) (mark : μ) :
    Except Fault (PathSegment μ) :=
  if h : entries = [] then .error .emptySegment else .ok ⟨entries, h, info, type, mark⟩

def length (s : PathSegment μ) : Nat := s.entries.length

def first (s : PathSegment μ) : IsdAs := (s.entries.head s.entries_ne_nil).isdAs

def last (s : PathSegment μ) : IsdAs := (s.entries.getLast s.entries_ne_nil).isdAs

def isCore (s : PathSegment μ) : Bool := s.type == .core

/-- The AS at the end opposite to the given one, of which the origin comes first. -/
def otherEnd (s : PathSegment μ) (isdAs : IsdAs) : Option IsdAs :=
  if s.first = isdAs then some s.last
  else if s.last = isdAs then some s.first
  else none

def hasEnd (s : PathSegment μ) (isdAs : IsdAs) : Bool := s.first == isdAs || s.last == isdAs

def contains (s : PathSegment μ) (isdAs : IsdAs) : Bool := s.entries.any (·.isdAs == isdAs)

/-- The entry at a position; negative positions count from the end. -/
def entryAt (s : PathSegment μ) (position : Int) : Except Fault AsEntry :=
  let index := if position < 0 then position + s.length else position
  if index < 0 then .error .outside
  else match s.entries[index.toNat]? with
    | some entry => .ok entry
    | none => .error .outside

def withType (s : PathSegment μ) (type : SegmentType) : PathSegment μ := { s with type }

def render (s : PathSegment μ) : String :=
  s.type.name ++ "[" ++ " ".intercalate (s.entries.map (·.isdAs.render)) ++ "]"

def bareEntries (s : PathSegment μ) : List AsEntry := s.entries.map ({ · with staticInfo := none })

/-- Whether two segments are the same up to static info and marks. -/
def sameBeacon {ν : Type} (s : PathSegment μ) (t : PathSegment ν) : Bool :=
  s.info == t.info && s.type == t.type && s.bareEntries == t.bareEntries

def agrees {ν : Type} (same : Binary64 → Binary64 → Bool) (s : PathSegment μ) (t : PathSegment ν) :
    Bool :=
  s.sameBeacon t && (s.entries.zip t.entries).all fun (a, b) =>
    match a.staticInfo, b.staticInfo with
    | some x, some y => x.agrees same y
    | none, none => true
    | _, _ => false

end PathSegment

end PathAssembly
