import PathAssembly.Lookup.Combination
import PathAssembly.Lookup.Inquiry

/-!
# Lookup protocol

Which queries a request makes, and in which order:

* segments up from the source to its isolation domain, unless the source is a core AS;
* segments between the core ASes of the two isolation domains, unless lookups are to be few and a
  segment up contains the destination;
* segments down from the isolation domain of the destination, unless the destination is an end of a
  core segment.

Of the core segments a core source uses only those that end at it. Every segment is given the role
of the query that returned it.
-/

namespace PathAssembly

variable {μ : Type}

namespace Inquiry

def fetchAs (service : Service μ) (role : SegmentType) (source destination : IsdAs) :
    Inquiry (List (PathSegment μ)) := do
  return (← fetch service source destination).map (·.withType role)

end Inquiry

namespace Candidate

def usableCore (localIsCore : Bool) (source : IsdAs) (core : List (PathSegment μ)) :
    List (PathSegment μ) :=
  if localIsCore then core.filter (·.last == source) else core

def combineBeyond (service : Service μ) (source destination : IsdAs) (localIsCore : Bool)
    (up : List (PathSegment μ)) : Inquiry (List (Candidate μ)) := do
  let core ← Inquiry.fetchAs service .core source.wildcard destination.wildcard
  if source.isd ≠ destination.isd ∧ core.isEmpty then return []
  let core := usableCore localIsCore source core
  if core.any (·.hasEnd destination) then combineSets up core [] source destination
  else
    let down ← Inquiry.fetchAs service .down destination.wildcard destination
    combineSets up core down source destination

def combineFromLeaf (service : Service μ) (source destination : IsdAs) (minimize : Bool) :
    Inquiry (List (Candidate μ)) := do
  let up ← Inquiry.fetchAs service .up source source.wildcard
  if up.isEmpty then return []
  let direct := containing up destination
  if minimize && !direct.isEmpty then
    let name ← destination.format
    Logged.note .debug .combination
      s!"Destination {name} found on {direct.length} up segment(s); skipping core lookup"
    return single direct source destination
  combineBeyond service source destination false up

/-- The candidates for paths from a source to a destination, in the order of their discovery. Inside
one AS there is a single candidate without segments, and nothing is looked up. -/
def combine (service : Service μ) (source destination : IsdAs) (localIsCore minimize : Bool) :
    Inquiry (List (Candidate μ)) :=
  if source = destination then return [{ source, destination }]
  else if localIsCore then combineBeyond service source destination true []
  else combineFromLeaf service source destination minimize

end Candidate

end PathAssembly
