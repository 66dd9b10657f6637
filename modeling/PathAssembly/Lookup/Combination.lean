import PathAssembly.Candidate
import PathAssembly.Logged
import PathAssembly.OrderedMap

/-!
# Combination of segments

Segments up from the source, between core ASes and down to the destination are combined to
candidates. Joins look segments up by their far ends, so that their cost grows with the number of
matches and not with the product of the sets.
-/

namespace PathAssembly

variable {μ : Type}

def containing (segments : List (PathSegment μ)) (isdAs : IsdAs) : List (PathSegment μ) :=
  segments.filter (·.contains isdAs)

def indexByOtherEnd (known : IsdAs) (segments : List (PathSegment μ)) :
    OrderedMap IsdAs (List (PathSegment μ)) :=
  segments.foldl (fun index s =>
    match s.otherEnd known with
    | some other => index.alter other fun found => found.getD [] ++ [s]
    | none => index) .empty

namespace Candidate

def single (segments : List (PathSegment μ)) (source destination : IsdAs) : List (Candidate μ) :=
  (segments.filter fun s => s.contains source && s.contains destination).map fun s =>
    { source, destination, segments := [s] }

/-- Segments that leave the source, each joined with the segments that reach the destination from
its other end. -/
def joinTwo (first second : List (PathSegment μ)) (source destination : IsdAs) :
    List (Candidate μ) :=
  let byMiddle := indexByOtherEnd destination second
  first.flatMap fun s =>
    match s.otherEnd source with
    | some middle => ((byMiddle.get? middle).getD []).map fun t =>
        { source, destination, segments := [s, t] }
    | none => []

/-- Core segments, each joined with the segments up to one of its ends and those down from the other
end. The origin is tried as the upper end first, and the other way only if there is no such join. -/
def joinThree (up core down : List (PathSegment μ)) (source destination : IsdAs) :
    List (Candidate μ) :=
  let upByCore := indexByOtherEnd source up
  let downByCore := indexByOtherEnd destination down
  let join (c : PathSegment μ) (ups downs : List (PathSegment μ)) : List (Candidate μ) :=
    ups.flatMap fun u => downs.map fun d => { source, destination, segments := [u, c, d] }
  core.flatMap fun c =>
    match upByCore.get? c.first, downByCore.get? c.last with
    | some ups, some downs => join c ups downs
    | _, _ =>
      match upByCore.get? c.last, downByCore.get? c.first with
      | some ups, some downs => join c ups downs
      | _, _ => []

/-- The candidates of three sets of segments, by which of them are empty. -/
def ofSets (up core down : List (PathSegment μ)) (source destination : IsdAs) :
    List (Candidate μ) :=
  match up.isEmpty, core.isEmpty, down.isEmpty with
  | false, false, false =>
    joinThree up core down source destination
      ++ if source.isd = destination.isd then joinTwo up down source destination else []
  | false, false, true =>
    joinTwo up core source destination
      ++ single (containing up destination) source destination
  | false, true, false => joinTwo up down source destination
  | true, false, false =>
    joinTwo core down source destination
      ++ single (containing down source) source destination
  | false, true, true => single up source destination
  | true, false, true => single core source destination
  | true, true, false => single down source destination
  | true, true, true => []

def combineSets (up core down : List (PathSegment μ)) (source destination : IsdAs) :
    Logged (List (Candidate μ)) := do
  let candidates := ofSets up core down source destination
  Logged.note .debug .combination
    (s!"Segment sets up={up.length} core={core.length} down={down.length} "
      ++ s!"gave {candidates.length} candidate(s)")
  return candidates

end Candidate

end PathAssembly
