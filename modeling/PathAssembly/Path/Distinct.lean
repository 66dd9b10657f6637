import PathAssembly.Header.Crossing
import PathAssembly.Logged
import PathAssembly.OrderedMap
import PathAssembly.Path.Built

/-!
# Distinct paths

Two headers may differ and still forward alike: segment identifiers and times differ between
segments that are equal otherwise, and hop fields at a cut hold interfaces that are never crossed.
Paths are therefore told apart by the links that they cross. Of several paths that cross the same
links the one that expires last is kept, in the place of the first.

Paths are kept in buckets by a hash of their links. The result does not depend on the hash.
-/

namespace PathAssembly

structure KeptPath (μ : Type) where
  order : Nat
  links : List Crossing
  path : BuiltPath μ

/-- What became of an offered path: it is kept, it is kept in place of one that expires sooner, or
it is given up for one that does not. -/
inductive Verdict (μ : Type) where
  | added
  | replaced (old : BuiltPath μ)
  | discarded

def Verdict.isKept {μ : Type} : Verdict μ → Bool
  | added | replaced _ => true
  | discarded => false

/-- The paths kept so far, in buckets by the hash of their links. -/
structure DistinctPaths (κ μ : Type) where
  buckets : OrderedMap κ (List (KeptPath μ)) := .empty
  size : Nat := 0

namespace DistinctPaths

variable {κ μ : Type}

def offer (new : KeptPath μ) : List (KeptPath μ) → List (KeptPath μ) × Verdict μ
  | [] => ([new], .added)
  | kept :: rest =>
    if kept.links ≠ new.links then
      let (rest, verdict) := offer new rest
      (kept :: rest, verdict)
    else if kept.path.expiration < new.path.expiration then
      ({ kept with path := new.path } :: rest, .replaced kept.path)
    else (kept :: rest, .discarded)

variable [DecidableEq κ]

def addCrossing (hash : List Crossing → κ) (d : DistinctPaths κ μ) (links : List Crossing)
    (path : BuiltPath μ) : DistinctPaths κ μ × Verdict μ :=
  let (bucket, verdict) := offer ⟨d.size, links, path⟩ ((d.buckets.get? (hash links)).getD [])
  let size := match verdict with
    | .added => d.size + 1
    | _ => d.size
  ({ buckets := d.buckets.insert (hash links) bucket, size }, verdict)

def add (hash : List Crossing → κ) (d : DistinctPaths κ μ) (path : BuiltPath μ) :
    Except Fault (DistinctPaths κ μ × Verdict μ) := do
  return d.addCrossing hash (← interfacePairs path.raw) path

/-- The kept paths, in the order in which their links first came. -/
def paths (d : DistinctPaths κ μ) : List (BuiltPath μ) :=
  (d.buckets.values.flatten.mergeSort fun a b => a.order ≤ b.order).map (·.path)

def ofList (hash : List Crossing → κ) (paths : List (BuiltPath μ)) :
    Except Fault (DistinctPaths κ μ) :=
  paths.foldlM (fun d path => do return (← d.add hash path).1) {}

def describe (path : BuiltPath μ) (wording : String → String) : Logged Unit :=
  Logged.noteOf .debug .duplicates (path.format.map wording)

def report (path : BuiltPath μ) : Verdict μ → Logged Unit
  | .added => pure ()
  | .replaced old =>
    describe old fun text => "Replacing duplicate path " ++ text ++ " with later expiring one"
  | .discarded => describe path fun text => "Discarding duplicate path " ++ text

def addLogged (hash : List Crossing → κ) (d : DistinctPaths κ μ) (path : BuiltPath μ) :
    Logged (DistinctPaths κ μ × Verdict μ) := do
  let (next, verdict) ← d.add hash path
  report path verdict
  return (next, verdict)

end DistinctPaths

end PathAssembly
