import PathAssembly.Segment.Range

/-!
# Static metadata of a path

What the ASes of a path say about themselves, in the order of traversal. Every visited entry
contributes on its own: its link for an interface of exit, its location for every interface, its
link type for an interface of entry, the way through the AS if the path transits it, and its note
unless the entry before it belongs to the same AS. An AS that says nothing contributes placeholders
in the same places, so that positions stay aligned.
-/

namespace PathAssembly

/-- Metadata of a path. Latencies in milliseconds and bandwidths in kilobits per second stand for
links and transited ASes as they come; -1 and 0 say that nothing is known. -/
structure PathMetadata where
  latency : List Int := []
  bandwidth : List Int := []
  geo : List GeoCoordinates := []
  linkType : List LinkType := []
  internalHops : List Int := []
  notes : List String := []
  deriving DecidableEq

namespace PathMetadata

def append (a b : PathMetadata) : PathMetadata :=
  { latency := a.latency ++ b.latency
    bandwidth := a.bandwidth ++ b.bandwidth
    geo := a.geo ++ b.geo
    linkType := a.linkType ++ b.linkType
    internalHops := a.internalHops ++ b.internalHops
    notes := a.notes ++ b.notes }

instance : Append PathMetadata := ⟨append⟩

@[simp] theorem latency_append (a b : PathMetadata) : (a ++ b).latency = a.latency ++ b.latency :=
  rfl

@[simp] theorem bandwidth_append (a b : PathMetadata) :
    (a ++ b).bandwidth = a.bandwidth ++ b.bandwidth := rfl

@[simp] theorem geo_append (a b : PathMetadata) : (a ++ b).geo = a.geo ++ b.geo := rfl

@[simp] theorem linkType_append (a b : PathMetadata) :
    (a ++ b).linkType = a.linkType ++ b.linkType := rfl

@[simp] theorem internalHops_append (a b : PathMetadata) :
    (a ++ b).internalHops = a.internalHops ++ b.internalHops := rfl

@[simp] theorem notes_append (a b : PathMetadata) : (a ++ b).notes = a.notes ++ b.notes := rfl

end PathMetadata

/-- An entry on the way of a path. It is in transit unless the path starts, ends or changes segment
there. -/
structure Visit where
  entry : AsEntry
  reversed : Bool
  transit : Bool
  deriving DecidableEq

namespace Visit

/-- Milliseconds of microseconds, rounded down; -1 if unknown. -/
def millis : Option Int → Int
  | some micros => micros / 1000
  | none => -1

/-- The value that describes an AS as a whole. It is kept per interface on the other side of the
AS, which a single segment does not know: the first one stands for all. -/
def anyValue {ν : Type} (values : OrderedMap Int ν) : Option ν := values.values.head?

def location (info : StaticInfo) (interface : Int) : GeoCoordinates :=
  (info.geo.get? interface).getD {}

def linkPart (info : StaticInfo) (egress : UInt16) : PathMetadata :=
  if egress = 0 then {}
  else
    let interface : Int := egress.toNat
    { latency := [millis (info.latencyInter.get? interface)]
      bandwidth := [(info.bandwidthInter.get? interface).getD 0]
      geo := [location info interface] }

def entryPart (info : StaticInfo) (ingress : UInt16) : PathMetadata :=
  if ingress = 0 then {} else { geo := [location info ingress.toNat] }

def kindPart (info : StaticInfo) (ingress : UInt16) : PathMetadata :=
  if ingress = 0 then {} else { linkType := [(anyValue info.linkType).getD .unspecified] }

def transitPart (info : StaticInfo) (transit : Bool) : PathMetadata :=
  if transit then
    { latency := [millis (anyValue info.latencyIntra)]
      bandwidth := [(anyValue info.bandwidthIntra).getD 0]
      internalHops := [(anyValue info.internalHops).getD 0] }
  else {}

def notePart (info : StaticInfo) (newAs : Bool) : PathMetadata :=
  if newAs then { notes := [info.note] } else {}

/-- What an entry contributes whose AS says something, in the order in which the path meets it. -/
def described (v : Visit) (info : StaticInfo) (newAs : Bool) : PathMetadata :=
  let link := linkPart info v.entry.hop.egress
  let entry := entryPart info v.entry.hop.ingress
  let through := transitPart info v.transit
  let kind := kindPart info v.entry.hop.ingress
  let note := notePart info newAs
  if v.reversed then link ++ entry ++ through ++ kind ++ note
  else through ++ kind ++ entry ++ link ++ note

/-- The placeholders of an entry whose AS says nothing, in an order that does not ask for the
direction. -/
def placeholders (v : Visit) (newAs : Bool) : PathMetadata :=
  let link : PathMetadata :=
    if v.entry.hop.egress = 0 then {} else { latency := [-1], bandwidth := [0], geo := [{}] }
  let entry : PathMetadata :=
    if v.entry.hop.ingress = 0 then {} else { linkType := [.unspecified], geo := [{}] }
  let through : PathMetadata :=
    if v.transit then { latency := [-1], bandwidth := [0], internalHops := [0] } else {}
  let note : PathMetadata := if newAs then { notes := [""] } else {}
  link ++ entry ++ through ++ note

def metadata (v : Visit) (newAs : Bool) : PathMetadata :=
  match v.entry.staticInfo with
  | some info => v.described info newAs
  | none => v.placeholders newAs

end Visit

namespace PathMetadata

/-- Whether a position of the range in one slot of several is in transit: neither end of the path,
nor the AS where a segment meets the next one, which is visited twice, counts twice. -/
def isTransit (slot count : Nat) (position : Int) (r : SegmentRange) : Bool :=
  let atFirst := position == r.start
  let atLast := position == r.last
  if count = 1 then !(atFirst || atLast)
  else if slot = 0 then !atFirst
  else if slot + 1 = count ∧ count = 3 then !atLast
  else !(atFirst || atLast)

def slotVisits {μ : Type} (slot count : Nat) (s : PathSegment μ) (r : SegmentRange) :
    Except Fault (List Visit) := do
  return (← r.walk s).map fun (position, entry) =>
    { entry, reversed := r.reversed, transit := isTransit slot count position r }

def visits {μ : Type} (segments : List (PathSegment μ)) (ranges : List SegmentRange) :
    Except Fault (List Visit) := do
  let slots ← (segments.zip ranges).zipIdx.mapM fun ((s, r), slot) =>
    slotVisits slot ranges.length s r
  return slots.flatten

/-- The metadata of visits behind an entry of the AS `previous`. -/
def ofVisits (previous : Option IsdAs) : List Visit → PathMetadata
  | [] => {}
  | v :: rest =>
    v.metadata (previous != some v.entry.isdAs) ++ ofVisits (some v.entry.isdAs) rest

def collect {μ : Type} (segments : List (PathSegment μ)) (ranges : List SegmentRange) :
    Except Fault PathMetadata := do
  return ofVisits none (← visits segments ranges)

end PathMetadata

end PathAssembly
