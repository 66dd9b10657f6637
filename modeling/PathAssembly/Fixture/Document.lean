import PathAssembly.Fixture.Reader
import PathAssembly.Lookup.Service

/-!
# Fixture documents

A document describes a local AS and the segments that a service returns, each with the query that
returns it. It makes requests reproducible without a service.
-/

namespace PathAssembly

structure Fixture where
  topology : Option Topology
  store : SegmentStore Value

namespace Fixture

def keys : List String := ["topology", "segments"]

def readTopology (document : Value) : Except Fault (Option Topology) := do
  match ← document.field "topology" with
  | .scalar .null => return none
  | .map pairs => return some (← Topology.read (.map pairs))
  | _ => throw (.notMapping "topology")

def readSegment (v : Value) : Except Fault (Query × PathSegment Value) :=
  match v with
  | .map _ => do
    match ← v.field "query" with
    | .list [source, destination] =>
      let source ← source.asIsdAs
      let destination ← destination.asIsdAs
      return (⟨source, destination⟩, ← PathSegment.read v)
    | _ => throw .queryMissing
  | _ => .error .segmentNotMapping

/-- The records of the segments of a document; whatever counts as false stands for none. -/
def segmentRecords (document : Value) : Except Fault (List Value) := do
  let segments ← document.field "segments"
  match segments with
  | .list items => return items
  | _ => if segments.truth then throw .segmentsNotList else return []

/-- What a document describes, which must be a mapping or nothing. -/
def read (document : Value) : Except Fault Fixture := do
  let document ← match document with
    | .scalar .null => pure (.map [])
    | .map pairs => pure (.map pairs)
    | _ => throw .documentNotMapping
  document.checkKeys "fixture" keys
  let topology ← readTopology document
  let segments ← (← segmentRecords document).mapM readSegment
  let store := segments.foldl (fun store (query, s) => store.add query [s]) {}
  return { topology, store }

end Fixture

end PathAssembly
