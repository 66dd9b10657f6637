import PathAssembly.Candidate
import PathAssembly.Path.Built
import PathAssembly.Path.Leg
import PathAssembly.Path.Truncation
import PathAssembly.Topology

/-!
# Assembly

A candidate becomes a path in three steps: its segments are oriented from the local AS on, what the
path does not need is left out, and what remains is encoded. A candidate whose segments do not
attach to each other is dropped; this is routine, since candidates are only proposals.
-/

namespace PathAssembly

namespace BuiltPath

def inside (topology : Topology) (now : Int) : Except Fault (BuiltPath Unit) := do
  let raw ← PathHeader.encodeMeta [] 0 0
  return { raw, mtu := topology.mtu, expiration := now, mark := () }

def checkLength (r : SegmentRange) : Except Fault Unit :=
  if PathHeader.maxHops < r.length then .error (.rangeTooLong r.segmentIndex r.length) else .ok ()

def firstHopOf (topology : Topology) (interfaces : List PathInterface) : Except Fault String :=
  match interfaces with
  | [] => .ok ""
  | first :: _ => topology.borderRouter first.id

/-- The path along ranges of segments. A path that has ranges has a hop field, so that there is an
expiration. -/
def ofRanges {μ : Type} (topology : Topology) (segments : List (PathSegment μ))
    (ranges : List SegmentRange) : Except Fault (BuiltPath Unit) := do
  let legs ← (segments.zip ranges).mapM fun (s, r) => Leg.ofRange s r
  let raw ← (PathHeader.ofLegs (ranges.map fun r => (r.length : Int)) legs).encode
  let interfaces := legs.flatMap Leg.interfaces
  let firstHop ← firstHopOf topology interfaces
  let metadata ← PathMetadata.collect segments ranges
  return {
    raw
    mtu := (legs.flatMap Leg.mtus).foldl min topology.mtu
    expiration := (legs.flatMap Leg.expirations).min?.getD 0
    interfaces, firstHop, metadata
    mark := () }

end BuiltPath

namespace Candidate

variable {μ : Type}

def reportDetached (c : Candidate μ) (start : IsdAs) : Logged Unit := do
  let name ← start.format
  Logged.note .debug .assembly
    ("Dropping candidate " ++ c.render ++ s!": segments do not attach at {name}")

/-- The path of a candidate, if its segments attach to each other from the local AS on. The path
inside the local AS expires `now`. -/
def build (c : Candidate μ) (topology : Topology) (now : Int) :
    Logged (Option (BuiltPath Unit)) := do
  if c.isLocal then return some (← BuiltPath.inside topology now)
  if PathHeader.maxSegments < c.segments.length then
    Logged.ofExcept (.error (.tooManySegments c.segments.length))
  match PathSegment.orient topology.isdAs c.segments with
  | none =>
    c.reportDetached topology.isdAs
    return none
  | some ranges =>
    let used ← truncate c.segments ranges c.source c.destination
    used.ranges.forM fun r => Logged.ofExcept (BuiltPath.checkLength r)
    return some (← BuiltPath.ofRanges topology used.segments used.ranges)

end Candidate

end PathAssembly
