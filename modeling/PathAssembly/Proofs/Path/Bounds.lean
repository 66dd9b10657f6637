import PathAssembly.Proofs.Path.Assembly
import PathAssembly.Proofs.Path.Direction

/-!
# Truncated ranges stay on their segments

An end of a range may lie outside its segment, at −1 or behind the last entry, and a position that
is negative would be counted from the end of the segment without a fault. Truncation moves the ends
of ranges in both directions. What it leaves over visits entries of its segment nevertheless:
of the first range what comes before the cut, of the last one what comes behind it, and of all
others everything.
-/

namespace PathAssembly

variable {μ : Type}

namespace SegmentRange

/-- A range visits entries of its segment at these positions, step by step from the first one to the
last. -/
structure Within (s : PathSegment μ) (r : SegmentRange) (positions : List Int) : Prop where
  positions_eq : r.positions = .ok positions
  length_eq : r.length = positions.length
  length_pos : 1 ≤ positions.length
  inside : ∀ position ∈ positions, 0 ≤ position ∧ position < s.length
  head?_eq : positions.head? = some r.start
  steps : positions.IsChain fun position next => next = position + r.step
  getLast?_eq : positions.getLast? = some r.last

/-- What becomes of the range in a place among others: it stays as it is, or an end is moved, that
of the first range towards its beginning or the beginning of the last one towards its end. -/
inductive TrimsTo (place count : Nat) (r : SegmentRange) (positions : List Int) :
    SegmentRange → List Int → Prop
  | whole : TrimsTo place count r positions r positions
  | stopSooner {stop : Int} {kept cut : List Int} (hfirst : place = 0)
      (hpositions : positions = kept ++ cut) : TrimsTo place count r positions { r with stop } kept
  | startLater {start : Int} {cut kept : List Int} (hlast : place + 1 = count)
      (hpositions : positions = cut ++ kept) : TrimsTo place count r positions { r with start } kept

theorem isChain_positionsFrom (step : Int) (count : Nat) (position : Int) :
    (positionsFrom step count position).IsChain fun position next => next = position + step := by
  induction count generalizing position with
  | zero => exact .nil
  | succ count ih =>
      cases count with
      | zero => exact .singleton position
      | succ count => exact .cons_cons rfl (ih (position + step))

variable {s : PathSegment μ} {r : SegmentRange}

theorem Fits.within (h : r.Fits s) : r.Within s ((r.visited s).map Prod.fst) := by
  have hlength : ((r.visited s).map Prod.fst).length = r.length := by
    rw [List.length_map, h.length_visited]
  have hpositions := h.map_fst_visited
  have hcount : r.count = r.length := by
    rw [← hlength, hpositions, length_positionsFrom]
  have hpos : 0 < r.count := hcount ▸ h.length_pos
  refine ⟨positions_eq_ok h, hlength.symm, hlength ▸ h.length_pos, ?_, ?_, ?_, ?_⟩
  · intro position hposition
    obtain ⟨x, hx, rfl⟩ := List.mem_map.1 hposition
    obtain ⟨i, hi, rfl⟩ := PathSegment.exists_of_mem_numbered (mem_numbered_of_mem_visited hx)
    exact ⟨Int.natCast_nonneg i, Int.ofNat_lt.2 hi⟩
  · rw [hpositions, List.head?_eq_getElem?, getElem?_positionsFrom hpos, Int.natCast_zero,
      Int.zero_mul, Int.add_zero]
  · rw [hpositions]
    exact isChain_positionsFrom r.step r.count r.start
  · rw [hpositions, List.getLast?_eq_getElem?, length_positionsFrom,
      getElem?_positionsFrom (Nat.sub_lt hpos Nat.one_pos), Int.natCast_sub hpos, h.last_eq,
      Int.natCast_one]

end SegmentRange

/-- A segment and a range that are left over have one place among all segments and ranges, and the
range comes from the one in this place. -/
def Trims (segments : List (PathSegment μ)) (ranges : List SegmentRange) (s : PathSegment μ)
    (trimmed : SegmentRange) : Prop :=
  ∃ (place : Nat) (r : SegmentRange) (positions kept : List Int),
    segments[place]? = some s ∧ ranges[place]? = some r ∧ r.segmentIndex = place ∧
      r.Within s positions ∧ trimmed.Within s kept ∧
      r.TrimsTo place segments.length positions trimmed kept

section Places

variable {segments segments' : List (PathSegment μ)} {ranges ranges' : List SegmentRange}
  {s : PathSegment μ} {r : SegmentRange} {place : Nat} {source destination : IsdAs}
  {before after : List (Int × AsEntry)} {x : Int × AsEntry}

theorem trims_whole (hs : segments[place]? = some s) (hr : ranges[place]? = some r)
    (hplace : r.segmentIndex = place) (hfits : r.Fits s) : Trims segments ranges s r :=
  ⟨place, r, _, _, hs, hr, hplace, hfits.within, hfits.within, .whole⟩

theorem trims_stop (hs : segments[0]? = some s) (hr : ranges[0]? = some r)
    (hplace : r.segmentIndex = 0) (hfits : r.Fits s) (hx : r.visited s = before ++ x :: after) :
    Trims segments ranges s { r with stop := x.1 + r.step } := by
  obtain ⟨hfits', hvisited⟩ := hfits.stop_behind hx
  have hpositions : (r.visited s).map Prod.fst
      = (({ r with stop := x.1 + r.step } : SegmentRange).visited s).map Prod.fst
        ++ after.map Prod.fst := by
    rw [hvisited, hx, ← List.map_append, List.append_cons]
  exact ⟨0, r, _, _, hs, hr, hplace, hfits.within, hfits'.within, .stopSooner rfl hpositions⟩

theorem trims_start (hs : segments[place]? = some s) (hr : ranges[place]? = some r)
    (hplace : r.segmentIndex = place) (hlast : place + 1 = segments.length) (hfits : r.Fits s)
    (hx : r.visited s = before ++ x :: after) :
    Trims segments ranges s { r with start := x.1 } := by
  obtain ⟨hfits', hvisited⟩ := hfits.start_at hx
  have hpositions : (r.visited s).map Prod.fst
      = before.map Prod.fst
        ++ (({ r with start := x.1 } : SegmentRange).visited s).map Prod.fst := by
    rw [hvisited, hx, ← List.map_append]
  exact ⟨place, r, _, _, hs, hr, hplace, hfits.within, hfits'.within, .startLater hlast hpositions⟩

theorem forall₂_trims_whole (hfits : List.Forall₂ SegmentRange.Fits segments ranges)
    (hplaces : ∀ (i : Nat) (r : SegmentRange), ranges[i]? = some r → r.segmentIndex = i) :
    List.Forall₂ (Trims segments ranges) segments ranges := by
  obtain ⟨hlength, hget⟩ := List.forall₂_iff_get.1 hfits
  refine List.forall₂_iff_get.2 ⟨hlength, fun i hs hr => ?_⟩
  exact trims_whole (List.getElem?_eq_getElem hs) (List.getElem?_eq_getElem hr)
    (hplaces i _ (List.getElem?_eq_getElem hr)) (hget i hs hr)

theorem pairwise_segmentIndex
    (hplaces : ∀ (i : Nat) (r : SegmentRange), ranges[i]? = some r → r.segmentIndex = i) :
    (ranges.map (·.segmentIndex)).Pairwise (· < ·) := by
  rw [List.pairwise_iff_getElem]
  intro i j hi hj hij
  rw [List.length_map] at hi hj
  rw [List.getElem_map, List.getElem_map, hplaces i _ (List.getElem?_eq_getElem hi),
    hplaces j _ (List.getElem?_eq_getElem hj)]
  exact Int.ofNat_lt.2 hij

/-- What a truncation leaves over comes from different places, in their order. -/
theorem Truncates.trims
    (h : Truncates source destination segments ranges segments' ranges')
    (hfits : List.Forall₂ SegmentRange.Fits segments ranges)
    (hplaces : ∀ (i : Nat) (r : SegmentRange), ranges[i]? = some r → r.segmentIndex = i) :
    (ranges'.map (·.segmentIndex)).Pairwise (· < ·) ∧
      List.Forall₂ (Trims segments ranges) segments' ranges' := by
  cases h with
  | @untilDestination s r others tail before after x hvisit =>
      have hr : r.Fits s := (List.forall₂_cons.1 hfits).1
      exact ⟨List.pairwise_singleton _ _,
        .cons (trims_stop rfl rfl (hplaces 0 r rfl) hr hvisit.visited) .nil⟩
  | alone _ => exact ⟨pairwise_segmentIndex hplaces, forall₂_trims_whole hfits hplaces⟩
  | @fromSource s t r q between middle before after x _ hvisit =>
      have hq : q.Fits t := forall₂_last hfits
      have hsegment : (s :: (between ++ [t]))[between.length + 1]? = some t := by simp
      have hrange : (r :: (middle ++ [q]))[between.length + 1]? = some q := by
        simp [length_between hfits]
      exact ⟨List.pairwise_singleton _ _,
        .cons (trims_start hsegment hrange (hplaces _ q hrange) (by simp) hq hvisit.visited) .nil⟩
  | @shortcut s t r q between middle before after lead rest x y _ _ hcrossing =>
      have hr : r.Fits s := (List.forall₂_cons.1 hfits).1
      have hq : q.Fits t := forall₂_last hfits
      have hsegment : (s :: (between ++ [t]))[between.length + 1]? = some t := by simp
      have hrange : (r :: (middle ++ [q]))[between.length + 1]? = some q := by
        simp [length_between hfits]
      have hfirst : r.segmentIndex = 0 := hplaces 0 r rfl
      have hlast := hplaces _ q hrange
      refine ⟨?_, .cons (trims_stop rfl rfl hfirst hr hcrossing.up.visited)
        (.cons (trims_start hsegment hrange hlast (by simp) hq hcrossing.down) .nil)⟩
      rw [List.map_cons, List.map_singleton, List.pairwise_pair, hfirst, hlast]
      exact Int.natCast_pos.2 (Nat.succ_pos _)
  | whole _ _ _ => exact ⟨pairwise_segmentIndex hplaces, forall₂_trims_whole hfits hplaces⟩

end Places

/-- What a truncation of oriented segments leaves over are ranges within their segments, each of
them the whole range of the segment or what is left of it where the path leaves the first segment or
enters the last one. -/
theorem truncate_trims {segments : List (PathSegment μ)} {ranges : List SegmentRange}
    {start : IsdAs} (hne : segments ≠ [])
    (horient : PathSegment.orient start segments = some ranges) (source destination : IsdAs) :
    ∃ used, (truncate segments ranges source destination).result = .ok used ∧
      1 ≤ used.segments.length ∧ used.segments.length = used.ranges.length ∧
      (used.ranges.map (·.segmentIndex)).Pairwise (· < ·) ∧
      List.Forall₂ (Trims segments ranges) used.segments used.ranges := by
  have hfits := PathSegment.forall₂_fits_orientFrom horient
  have hplaces : ∀ (i : Nat) (r : SegmentRange), ranges[i]? = some r → r.segmentIndex = i := by
    intro i r hr
    have hi : i < segments.length := by
      rw [hfits.length_eq]
      exact (List.getElem?_eq_some_iff.1 hr).1
    have hindex := (PathSegment.covers_orientFrom horient
      (List.getElem?_eq_getElem hi) hr).segmentIndex_eq
    rwa [Nat.zero_add] at hindex
  obtain ⟨used, hused, htruncates⟩ := exists_truncate hfits hne source destination
  obtain ⟨hpairwise, htrims⟩ := htruncates.trims hfits hplaces
  exact ⟨used, hused, List.length_pos_of_ne_nil htruncates.ne_nil, htrims.length_eq, hpairwise,
    htrims⟩

theorem truncate_trims_viaShortcut :
    Candidate.viaShortcut.segments ≠ [] ∧
      PathSegment.orient leafTopology.isdAs Candidate.viaShortcut.segments
        = some [⟨0, 2, -1, -1⟩, ⟨1, 0, 3, 1⟩] ∧
      ∃ used, (truncate Candidate.viaShortcut.segments [⟨0, 2, -1, -1⟩, ⟨1, 0, 3, 1⟩]
          (.plain 1 112) (.plain 1 113)).result = .ok used ∧
        1 ≤ used.segments.length ∧ used.segments.length = used.ranges.length ∧
        (used.ranges.map (·.segmentIndex)).Pairwise (· < ·) ∧
        List.Forall₂ (Trims Candidate.viaShortcut.segments [⟨0, 2, -1, -1⟩, ⟨1, 0, 3, 1⟩])
          used.segments used.ranges := by
  have hne : Candidate.viaShortcut.segments ≠ [] := List.cons_ne_nil _ _
  have horient : PathSegment.orient leafTopology.isdAs Candidate.viaShortcut.segments
      = some [⟨0, 2, -1, -1⟩, ⟨1, 0, 3, 1⟩] := rfl
  exact ⟨hne, horient, truncate_trims hne horient _ _⟩

end PathAssembly
