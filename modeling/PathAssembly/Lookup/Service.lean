import PathAssembly.OrderedMap
import PathAssembly.Segment.Basic

/-!
# Lookup services

Segments are looked up at a service. A service answers a query as it likes: its answer may depend on
all queries before, and it may fail, also after it has delivered some segments.
-/

namespace PathAssembly

/-- The two ends between which segments are looked up; either may be a wildcard. -/
structure Query where
  source : IsdAs
  destination : IsdAs
  deriving DecidableEq, Repr

/-- The answer to a query. A failure may come after some segments. -/
inductive Reply (μ : Type) where
  | segments (found : List (PathSegment μ))
  | failure (reason : String) (delivered : List (PathSegment μ))

/-- A service, as a function of the queries before and of the query. -/
abbrev Service (μ : Type) := List Query → Query → Reply μ

structure SegmentStore (μ : Type) where
  answers : OrderedMap Query (List (PathSegment μ)) := .empty

namespace SegmentStore

variable {μ : Type}

def add (store : SegmentStore μ) (query : Query) (segments : List (PathSegment μ)) :
    SegmentStore μ :=
  ⟨store.answers.alter query fun found => found.getD [] ++ segments⟩

def find (store : SegmentStore μ) (query : Query) : List (PathSegment μ) :=
  (store.answers.get? query).getD []

def size (store : SegmentStore μ) : Nat := store.answers.values.flatten.length

/-- The store as a service, which has no memory and does not fail. -/
def service (store : SegmentStore μ) : Service μ := fun _ query => .segments (store.find query)

/-- What is added to one query is found there, behind what was there, and nowhere else. -/
theorem find_add (store : SegmentStore μ) (query other : Query) (segments : List (PathSegment μ)) :
    (store.add query segments).find other =
      if query = other then store.find query ++ segments else store.find other := by
  unfold find add
  rw [OrderedMap.get?_alter]
  split <;> rfl

end SegmentStore

end PathAssembly
