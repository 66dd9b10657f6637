import PathAssembly.Segment.Range

/-!
# Orientation

Segments attach to each other at their ends. Each segment is traversed from the end at which the
previous one stopped; a segment that has this AS at both ends is traversed in construction
direction.
-/

namespace PathAssembly

namespace PathSegment

variable {μ : Type}

def forwardRange (s : PathSegment μ) (index : Nat) : SegmentRange := ⟨index, 0, s.length, 1⟩

def reverseRange (s : PathSegment μ) (index : Nat) : SegmentRange := ⟨index, s.length - 1, -1, -1⟩

/-- The ranges of segments that attach to each other from an AS on, numbered from `index` on. -/
def orientFrom (index : Nat) (start : IsdAs) : List (PathSegment μ) → Option (List SegmentRange)
  | [] => some []
  | s :: rest =>
    if s.first = start then (orientFrom (index + 1) s.last rest).map (s.forwardRange index :: ·)
    else if s.last = start then
      (orientFrom (index + 1) s.first rest).map (s.reverseRange index :: ·)
    else none

def orient (start : IsdAs) (segments : List (PathSegment μ)) : Option (List SegmentRange) :=
  orientFrom 0 start segments

theorem length_orientFrom {index : Nat} {start : IsdAs} {segments : List (PathSegment μ)}
    {ranges : List SegmentRange} (h : orientFrom index start segments = some ranges) :
    ranges.length = segments.length := by
  induction segments generalizing index start ranges with
  | nil => simp_all [orientFrom]
  | cons s rest ih =>
    unfold orientFrom at h
    split at h
    · obtain ⟨tail, ht, rfl⟩ := Option.map_eq_some_iff.1 h
      simp [ih ht]
    · split at h
      · obtain ⟨tail, ht, rfl⟩ := Option.map_eq_some_iff.1 h
        simp [ih ht]
      · simp at h

end PathSegment

end PathAssembly
