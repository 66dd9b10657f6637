import PathAssembly.Logged
import PathAssembly.Path.Orientation

/-!
# Truncation

A path need not follow its segments to their ends. If the destination is already on the first
segment, or the source on the last one, that segment alone is enough. Otherwise, if both segments
cross at some AS, the path changes over there and leaves out whatever lies between. Segments between
core ASes are never cut.
-/

namespace PathAssembly

/-- How a path leaves out parts of its segments. A stop is the position behind the last entry of
the first segment that is used, a start the position of the first one of the last segment. -/
inductive Cut where
  | whole
  | firstUntil (stop : Int)
  | lastFrom (start : Int)
  | crossing (stop start : Int)
  deriving DecidableEq, Repr

namespace Cut

def ends {α : Type} (items : List α) : Except Fault (α × α) :=
  match items.head?, items.getLast? with
  | some first, some last => .ok (first, last)
  | _, _ => .error .outside

def keep {α : Type} (cut : Cut) (items : List α) : List α :=
  match cut with
  | whole => items
  | firstUntil _ => items.take 1
  | lastFrom _ => items.drop (items.length - 1)
  | crossing .. => items.take 1 ++ items.drop (items.length - 1)

def stopFirst (stop : Int) (ranges : List SegmentRange) : List SegmentRange :=
  ranges.modifyHead ({ · with stop })

def startLast (start : Int) (ranges : List SegmentRange) : List SegmentRange :=
  ranges.modify (ranges.length - 1) ({ · with start })

def apply (cut : Cut) (ranges : List SegmentRange) : List SegmentRange :=
  match cut with
  | whole => ranges
  | firstUntil stop => stopFirst stop ranges
  | lastFrom start => startLast start ranges
  | crossing stop start => startLast start (stopFirst stop ranges)

theorem length_stopFirst (stop : Int) (ranges : List SegmentRange) :
    (stopFirst stop ranges).length = ranges.length := by
  cases ranges with
  | nil => rfl
  | cons r rest => rfl

theorem length_startLast (start : Int) (ranges : List SegmentRange) :
    (startLast start ranges).length = ranges.length := by
  simp [startLast]

theorem length_apply (cut : Cut) (ranges : List SegmentRange) :
    (cut.apply ranges).length = ranges.length := by
  cases cut with
  | whole => rfl
  | firstUntil stop => exact length_stopFirst stop ranges
  | lastFrom start => exact length_startLast start ranges
  | crossing stop start =>
    rw [apply, length_startLast, length_stopFirst]

variable {μ : Type}

/-- The position behind the destination, if it is on the first segment. -/
def destination? (s : PathSegment μ) (r : SegmentRange) (destination : IsdAs) :
    Except Fault (Option Int) :=
  if s.isCore then .ok none
  else do return (← r.find? s (·.isdAs == destination)).map (· + r.step)

def source? (s : PathSegment μ) (r : SegmentRange) (source : IsdAs) :
    Except Fault (Option Int) :=
  if s.isCore then .ok none else r.find? s (·.isdAs == source)

/-- The positions of the last entry of one walk whose AS is on another walk, there at its first
place. -/
def lastCrossing? (up down : List (Int × AsEntry)) : Option (Int × Int) :=
  down.reverse.findSome? fun (start, entry) =>
    (up.find? (·.2.isdAs == entry.isdAs)).map fun (position, _) => (position, start)

/-- The positions at which the first segment is left for the last one: the crossing that is last on
the way down, if its place on the way up is counted from the origin. -/
def crossing? (up down : PathSegment μ) (upRange downRange : SegmentRange) :
    Except Fault (Option (Int × Int)) :=
  if up.isCore || down.isCore then .ok none
  else do
    let upWalk ← upRange.walk up
    let downWalk ← downRange.walk down
    return (lastCrossing? upWalk downWalk).filter (0 ≤ ·.1)

def choose (segments : List (PathSegment μ)) (ranges : List SegmentRange)
    (source destination : IsdAs) : Except Fault Cut := do
  let (first, last) ← ends segments
  let (firstRange, lastRange) ← ends ranges
  if let some stop ← destination? first firstRange destination then return .firstUntil stop
  if segments.length < 2 then return .whole
  if let some start ← source? last lastRange source then return .lastFrom start
  if let some (position, start) ← crossing? first last firstRange lastRange then
    return .crossing (position + firstRange.step) start
  return .whole

def report (cut : Cut) (segments : List (PathSegment μ)) (ranges : List SegmentRange)
    (source destination : IsdAs) : Logged Unit :=
  match cut with
  | whole => pure ()
  | firstUntil _ => do
    let name ← destination.format
    Logged.note .debug .assembly s!"Destination {name} is on the up segment"
  | lastFrom _ => do
    let name ← source.format
    Logged.note .debug .assembly s!"Source {name} is on the down segment"
  | crossing stop start => do
    let (up, _) ← ends segments
    let (upRange, downRange) ← ends ranges
    if 2 < segments.length ∨ stop ≠ upRange.stop ∨ start ≠ downRange.start then
      let entry ← up.entryAt (stop - upRange.step)
      let name ← entry.isdAs.format
      Logged.note .debug .assembly s!"Shortcut at {name}"

end Cut

/-- The parts of segments that a path uses, beside the ranges of all segments. -/
structure Truncated (μ : Type) where
  segments : List (PathSegment μ)
  ranges : List SegmentRange
  allRanges : List SegmentRange

def truncate {μ : Type} (segments : List (PathSegment μ)) (ranges : List SegmentRange)
    (source destination : IsdAs) : Logged (Truncated μ) := do
  let cut ← Cut.choose segments ranges source destination
  cut.report segments ranges source destination
  let allRanges := cut.apply ranges
  return { segments := cut.keep segments, ranges := cut.keep allRanges, allRanges }

end PathAssembly
