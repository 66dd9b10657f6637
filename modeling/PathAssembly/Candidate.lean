import PathAssembly.Segment.Basic

/-!
# Candidates

A candidate is a sequence of segments that may lead from a source to a destination. Whether its
segments attach to each other is decided when a path is assembled from it. A candidate without
segments stands for the path inside the local AS.
-/

namespace PathAssembly

/-- A proposal for a path, with its segments in path order. -/
structure Candidate (μ : Type) where
  source : IsdAs
  destination : IsdAs
  segments : List (PathSegment μ) := []
  deriving DecidableEq

namespace Candidate

variable {μ : Type}

/-- Whether the candidate stands for the path inside the local AS. -/
def isLocal (c : Candidate μ) : Bool := c.segments.isEmpty

def render (c : Candidate μ) : String := " ".intercalate (c.segments.map (·.render))

end Candidate

end PathAssembly
