import PathAssembly.Lookup.Protocol
import PathAssembly.Path.Assembly
import PathAssembly.Path.Distinct
import PathAssembly.Settings

/-!
# Resolution

From a source and a destination to paths: segments are looked up and combined, every candidate is
assembled, and of paths that cross the same links one is kept. Paths with fewer interfaces come
first.
-/

namespace PathAssembly

variable {μ : Type}

/-- The paths of a request so far, and the number of candidates whose segments do not attach to each
other. -/
structure Resolution where
  distinct : DistinctPaths UInt64 Unit := {}
  dropped : Nat := 0

namespace Resolution

def addCandidate (topology : Topology) (now : Int) (r : Resolution) (c : Candidate μ) :
    Logged Resolution := do
  match ← c.build topology now with
  | none => return { r with dropped := r.dropped + 1 }
  | some path => return { r with distinct := (← r.distinct.addLogged hash path).1 }

/-- The paths, those with fewer interfaces first. -/
def paths (r : Resolution) : List (BuiltPath Unit) :=
  r.distinct.paths.mergeSort fun p q => p.interfaces.length ≤ q.interfaces.length

def ofCandidates (topology : Topology) (now : Int) (candidates : List (Candidate μ)) :
    Logged Resolution :=
  candidates.foldlM (addCandidate topology now) {}

end Resolution

/-- The distinct paths from a source to a destination; a path inside the local AS expires `now`. -/
def resolvePaths (service : Service μ) (source destination : IsdAs) (topology : Topology)
    (settings : Settings) (now : Int) : Inquiry (List (BuiltPath Unit)) := do
  let candidates ←
    Candidate.combine service source destination topology.core settings.minimizeRequests
  let resolution ← Resolution.ofCandidates topology now candidates
  let paths := resolution.paths
  let start ← source.format
  let goal ← destination.format
  Logged.note .info .resolution
    (s!"Paths {start} -> {goal}: {candidates.length} candidate(s), "
      ++ s!"{resolution.dropped} dropped, {paths.length} unique")
  return paths

end PathAssembly
