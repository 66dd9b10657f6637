import PathAssembly.Proofs.Path.Orientation

/-!
# Choices of direction

Whether segments attach to each other can be asked of every choice of directions, of which there are
as many as sets of segments. The orientation makes one pass instead: it takes the construction
direction wherever it can and never comes back to a choice. Nothing is lost by that. A segment that
can be entered at both ends begins and ends in one AS, so that its direction does not show in what
follows, and for the same reason all choices that make a chain stop at one AS.
-/

namespace PathAssembly

namespace PathSegment

variable {μ : Type}

def directed (s : PathSegment μ) (reversed : Bool) : List AsEntry :=
  if reversed then s.entries.reverse else s.entries

/-- Segments, each traversed in the direction that is chosen for it, lead from one AS to another:
the first entry of each belongs to the AS to which the last entry before it belongs. -/
inductive ChainBy : List Bool → IsdAs → List (PathSegment μ) → IsdAs → Prop
  | nil (a : IsdAs) : ChainBy [] a [] a
  | cons {reversed : Bool} {choice : List Bool} {a b c : IsdAs} {s : PathSegment μ}
      {rest : List (PathSegment μ)} (hentry : (s.directed reversed).head?.map (·.isdAs) = some a)
      (hexit : (s.directed reversed).getLast?.map (·.isdAs) = some b)
      (hrest : ChainBy choice b rest c) : ChainBy (reversed :: choice) a (s :: rest) c

/-- A range visits every entry of the segment at an index once, in one of the two directions. -/
structure Covers (s : PathSegment μ) (index : Nat) (r : SegmentRange) : Prop where
  segmentIndex_eq : r.segmentIndex = index
  length_eq : r.length = s.length
  positions_eq : r.positions
    = .ok (if r.reversed then ((List.range s.length).map Int.ofNat).reverse
        else (List.range s.length).map Int.ofNat)
  entries_eq : r.entries s = .ok (s.directed r.reversed)

variable (s : PathSegment μ)

theorem head?_directed (reversed : Bool) :
    (s.directed reversed).head?.map (·.isdAs) = some (if reversed then s.last else s.first) := by
  cases reversed with
  | false =>
      change s.entries.head?.map (·.isdAs) = some s.first
      rw [List.head?_eq_some_head s.entries_ne_nil]
      rfl
  | true =>
      change s.entries.reverse.head?.map (·.isdAs) = some s.last
      rw [List.head?_reverse, List.getLast?_eq_some_getLast s.entries_ne_nil]
      rfl

theorem getLast?_directed (reversed : Bool) :
    (s.directed reversed).getLast?.map (·.isdAs)
      = some (if reversed then s.first else s.last) := by
  cases reversed with
  | false =>
      change s.entries.getLast?.map (·.isdAs) = some s.last
      rw [List.getLast?_eq_some_getLast s.entries_ne_nil]
      rfl
  | true =>
      change s.entries.reverse.getLast?.map (·.isdAs) = some s.first
      rw [List.getLast?_reverse, List.head?_eq_some_head s.entries_ne_nil]
      rfl

theorem map_fst_numbered : s.numbered.map Prod.fst = (List.range s.length).map Int.ofNat := by
  apply List.ext_getElem
  · rw [List.length_map, List.length_map, length_numbered, List.length_range]
  · intro i hnumbered hrange
    have hi : i < s.length := by rwa [List.length_map, List.length_range] at hrange
    rw [List.getElem_map, List.getElem_map, s.getElem_numbered hi, List.getElem_range]
    rfl

variable {s} {choice : List Bool} {start stop : IsdAs} {segments rest : List (PathSegment μ)}

/-- A direction leads from one end of a segment to the other one. -/
theorem chainBy_cons_iff {reversed : Bool} :
    ChainBy (reversed :: choice) start (s :: rest) stop ↔
      (if reversed then s.last else s.first) = start ∧
        ChainBy choice (if reversed then s.first else s.last) rest stop := by
  constructor
  · intro h
    cases h with
    | cons hentry hexit hrest =>
        rw [head?_directed] at hentry
        rw [getLast?_directed] at hexit
        rw [Option.some.inj hexit]
        exact ⟨Option.some.inj hentry, hrest⟩
  · rintro ⟨hstart, hrest⟩
    exact .cons (by rw [head?_directed, hstart]) (s.getLast?_directed reversed) hrest

/-- There is a choice of directions exactly for segments that attach to each other. -/
theorem exists_chainBy_iff :
    (∃ choice, ChainBy choice start segments stop) ↔ Chain start segments stop := by
  constructor
  · rintro ⟨choice, h⟩
    induction segments generalizing choice start with
    | nil =>
        cases h
        exact .nil _
    | cons s rest ih =>
        cases choice with
        | nil => cases h
        | cons reversed choice =>
            obtain ⟨rfl, hrest⟩ := chainBy_cons_iff.1 h
            cases reversed with
            | false => exact .forward (ih choice hrest)
            | true => exact .reverse (ih choice hrest)
  · intro h
    induction h with
    | nil a => exact ⟨[], .nil a⟩
    | forward hrest ih =>
        obtain ⟨choice, hchoice⟩ := ih
        exact ⟨false :: choice, chainBy_cons_iff.2 ⟨rfl, hchoice⟩⟩
    | reverse hrest ih =>
        obtain ⟨choice, hchoice⟩ := ih
        exact ⟨true :: choice, chainBy_cons_iff.2 ⟨rfl, hchoice⟩⟩

theorem ChainBy.stop_eq {choice' : List Bool} {stop' : IsdAs}
    (h : ChainBy choice start segments stop) (h' : ChainBy choice' start segments stop') :
    stop' = stop := by
  have hfar := chain_iff_farEnd.1 (exists_chainBy_iff.1 ⟨choice, h⟩)
  have hfar' := chain_iff_farEnd.1 (exists_chainBy_iff.1 ⟨choice', h'⟩)
  exact Option.some.inj (hfar'.symm.trans hfar)

theorem Whole.map_snd_visited {r : SegmentRange} (h : s.Whole r) :
    (r.visited s).map Prod.snd = s.directed r.reversed := by
  cases h with
  | forward index =>
      rw [visited_forwardRange, map_snd_numbered]
      rfl
  | reverse index =>
      rw [visited_reverseRange, List.map_reverse, map_snd_numbered]
      rfl

theorem Whole.map_fst_visited {r : SegmentRange} (h : s.Whole r) :
    (r.visited s).map Prod.fst
      = if r.reversed then ((List.range s.length).map Int.ofNat).reverse
        else (List.range s.length).map Int.ofNat := by
  cases h with
  | forward index =>
      rw [visited_forwardRange, map_fst_numbered]
      rfl
  | reverse index =>
      rw [visited_reverseRange, List.map_reverse, map_fst_numbered]
      rfl

theorem Whole.covers {r : SegmentRange} (h : s.Whole r) {index : Nat}
    (hindex : r.segmentIndex = index) : s.Covers index r where
  segmentIndex_eq := hindex
  length_eq := by rw [← h.fits.length_visited, h.length_visited]
  positions_eq := by rw [SegmentRange.positions_eq_ok h.fits, h.map_fst_visited]
  entries_eq := by rw [SegmentRange.entries_eq_ok h.fits, h.map_snd_visited]

theorem segmentIndex_orientFrom {index : Nat} {r : SegmentRange} {tail : List SegmentRange}
    (h : orientFrom index start (s :: rest) = some (r :: tail)) : r.segmentIndex = index := by
  unfold orientFrom at h
  split_ifs at h
  · obtain ⟨_, _, hcons⟩ := Option.map_eq_some_iff.1 h
    rw [← (List.cons.inj hcons).1]
    rfl
  · obtain ⟨_, _, hcons⟩ := Option.map_eq_some_iff.1 h
    rw [← (List.cons.inj hcons).1]
    rfl

/-- Each segment is covered by the range in its place. -/
theorem covers_orientFrom {index : Nat} {ranges : List SegmentRange}
    (h : orientFrom index start segments = some ranges) {i : Nat} {r : SegmentRange}
    (hs : segments[i]? = some s) (hr : ranges[i]? = some r) : s.Covers (index + i) r := by
  induction segments generalizing index start ranges i with
  | nil => cases hs
  | cons t rest ih =>
      obtain ⟨_, q, tail, rfl, _, hwhole, _, _, htail⟩ := orientFrom_cons h
      cases i with
      | zero =>
          cases hs
          cases hr
          exact hwhole.covers (segmentIndex_orientFrom h)
      | succ i =>
          rw [Nat.add_comm i, ← Nat.add_assoc]
          exact ih htail hs hr

/-- The directions of an orientation make a chain. -/
theorem exists_chainBy_orientFrom {index : Nat} {ranges : List SegmentRange}
    (h : orientFrom index start segments = some ranges) :
    ∃ stop, ChainBy (ranges.map (·.reversed)) start segments stop := by
  induction segments generalizing index start ranges with
  | nil =>
      cases h
      exact ⟨start, .nil start⟩
  | cons s rest ih =>
      obtain ⟨middle, r, tail, rfl, _, hwhole, hentry, hexit, htail⟩ := orientFrom_cons h
      obtain ⟨stop, hchain⟩ := ih htail
      refine ⟨stop, .cons ?_ ?_ hchain⟩
      · rw [← hwhole.map_snd_visited, List.head?_map, Option.map_map]
        exact hentry
      · rw [← hwhole.map_snd_visited, List.getLast?_map, Option.map_map]
        exact hexit

/-- Segments are oriented exactly if some choice of directions makes a chain of them. The ranges are
then one for each segment, in order, each of them visits its whole segment once in one direction,
these directions make a chain, and all others that do stop at the same AS. -/
theorem orient_complete (start : IsdAs) (segments : List (PathSegment μ)) :
    ((∃ ranges, orient start segments = some ranges) ↔
        ∃ choice stop, ChainBy choice start segments stop) ∧
      ∀ ranges, orient start segments = some ranges →
        ranges.length = segments.length ∧
        (∀ (i : Nat) (s : PathSegment μ) (r : SegmentRange), segments[i]? = some s →
          ranges[i]? = some r → s.Covers i r) ∧
        ∃ stop, ChainBy (ranges.map (·.reversed)) start segments stop ∧
          ∀ choice stop', ChainBy choice start segments stop' → stop' = stop := by
  constructor
  · rw [orient, exists_orientFrom_iff, exists_comm]
    exact exists_congr fun stop => exists_chainBy_iff.symm
  · intro ranges h
    obtain ⟨stop, hchain⟩ := exists_chainBy_orientFrom h
    refine ⟨length_orientFrom h, ?_, stop, hchain, fun choice stop' => hchain.stop_eq⟩
    intro i s r hs hr
    have hcovers := covers_orientFrom h hs hr
    rwa [Nat.zero_add] at hcovers

/-- Up to a core AS, around to it again and down; the way around has two directions. -/
def aroundCore : List (PathSegment Unit) :=
  [.plain .up (.plain 1 110 0 1) [.plain 1 112 4 0],
    .plain .core (.plain 1 110 0 5) [.plain 1 120 6 7, .plain 1 110 8 0],
    .plain .down (.plain 1 110 0 1) [.plain 1 111 2 0]]

theorem orient_complete_aroundCore :
    orient (.plain 1 112) aroundCore = some [⟨0, 1, -1, -1⟩, ⟨1, 0, 3, 1⟩, ⟨2, 0, 2, 1⟩] ∧
      (∃ s, aroundCore[1]? = some s ∧ s.Covers 1 ⟨1, 0, 3, 1⟩) ∧
      ∃ stop, ChainBy [true, false, false] (.plain 1 112) aroundCore stop ∧
        ∀ choice stop', ChainBy choice (.plain 1 112) aroundCore stop' → stop' = stop := by
  have horient : orient (.plain 1 112) aroundCore
      = some [⟨0, 1, -1, -1⟩, ⟨1, 0, 3, 1⟩, ⟨2, 0, 2, 1⟩] := by decide
  obtain ⟨_, hcovers, hchain⟩ := (orient_complete (.plain 1 112) aroundCore).2 _ horient
  exact ⟨horient, ⟨_, rfl, hcovers 1 _ _ rfl rfl⟩, hchain⟩

end PathSegment

end PathAssembly
