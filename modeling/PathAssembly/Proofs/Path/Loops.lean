import PathAssembly.Proofs.Path.Route

/-!
# Loops between the outer segments

The first and the last segment of a path may have ASes in common. What a truncation leaves over of
them does not run through any of these twice: behind the last crossing the last segment comes to no
AS of the first one, and up to it the first segment comes to each of its own ASes once. Two segments
that attach to each other cross at the latest where they attach, so that only three segments can be
left whole, and then the outer ones have no AS in common.
-/

namespace PathAssembly

variable {μ : Type}

/-- A segment that may be cut and on which no AS comes twice. -/
structure PathSegment.Cuttable (s : PathSegment μ) : Prop where
  noncore : s.isCore = false
  nodup : (s.entries.map (·.isdAs)).Nodup

instance (s : PathSegment μ) : Decidable s.Cuttable :=
  decidable_of_iff (s.isCore = false ∧ (s.entries.map (·.isdAs)).Nodup)
    ⟨fun h => ⟨h.1, h.2⟩, fun h => ⟨h.noncore, h.nodup⟩⟩

/-- The ASes along walks of which each one but the first starts where the one before it stops. The
AS where two walks meet comes once. -/
def asesAlong : List (List (Int × AsEntry)) → List IsdAs
  | [] => []
  | walk :: rest => (walk ++ rest.flatMap List.tail).map (·.2.isdAs)

/-- One or two walks meet and come to no AS twice, and of three walks the outer ones have no AS in
common. -/
structure LoopFree (walks : List (List (Int × AsEntry))) : Prop where
  meet : ∀ first second, walks = [first, second] →
    ∃ a, first.getLast?.map (·.2.isdAs) = some a ∧ second.head?.map (·.2.isdAs) = some a
  nodup : walks.length ≤ 2 → (asesAlong walks).Nodup
  outer : ∀ first middle last, walks = [first, middle, last] →
    ∀ x ∈ first, ∀ y ∈ last, x.2.isdAs ≠ y.2.isdAs

namespace LoopFree

variable {first middle last : List (Int × AsEntry)}

theorem single (h : (first.map (·.2.isdAs)).Nodup) : LoopFree [first] where
  meet := by simp
  nodup := by simpa [asesAlong] using h
  outer := by simp

theorem pair {a : IsdAs} (hfirst : first.getLast?.map (·.2.isdAs) = some a)
    (hlast : last.head?.map (·.2.isdAs) = some a)
    (h : ((first ++ last.tail).map (·.2.isdAs)).Nodup) : LoopFree [first, last] where
  meet := by
    intro first' last' hwalks
    cases hwalks
    exact ⟨a, hfirst, hlast⟩
  nodup := by simpa [asesAlong] using h
  outer := by simp

theorem triple (h : ∀ x ∈ first, ∀ y ∈ last, x.2.isdAs ≠ y.2.isdAs) :
    LoopFree [first, middle, last] where
  meet := by simp
  nodup := by simp
  outer := by
    intro first' middle' last' hwalks
    cases hwalks
    exact h

end LoopFree

section Ranges

variable {s t : PathSegment μ} {r q : SegmentRange} {a b start stop source destination : IsdAs}

theorem PathSegment.Cuttable.nodup_ases (h : s.Cuttable) (hr : s.Whole r) : (r.ases s).Nodup := by
  have hnumbered : (s.numbered.map (·.2.isdAs)).Nodup := by
    have hentries := h.nodup
    rw [← s.map_snd_numbered, List.map_map] at hentries
    exact hentries
  cases hr with
  | forward index =>
      rw [SegmentRange.ases, visited_forwardRange]
      exact hnumbered
  | reverse index =>
      rw [SegmentRange.ases, visited_reverseRange, List.map_reverse, List.nodup_reverse]
      exact hnumbered

/-- Two ranges that attach to each other have an AS in common. -/
theorem Leads.not_apart (h : Leads a [(s, r), (t, q)] b) (hs : s.isCore = false)
    (ht : t.isCore = false) : ¬ Apart s t r q := by
  intro hapart
  obtain ⟨m, hexit, hentry, _⟩ := h.exists_change
  obtain ⟨x, hx, hxm⟩ := SegmentRange.exists_visited_of_exitAs hexit
  obtain ⟨y, hy, hym⟩ := SegmentRange.exists_visited_of_entryAs hentry
  exact hapart hs ht x hx y hy (hxm.trans hym.symm)

/-- Up to the last crossing and on from it no AS comes twice. -/
theorem LastCrossing.loopFree {before after lead rest : List (Int × AsEntry)}
    {x y : Int × AsEntry} (h : LastCrossing s t r q before x after lead y rest)
    (hr : (r.ases s).Nodup) (hq : (q.ases t).Nodup) : LoopFree [before ++ [x], y :: rest] := by
  rw [SegmentRange.ases, h.up.visited, List.append_cons, List.map_append] at hr
  rw [SegmentRange.ases, h.down, List.append_cons, List.map_append] at hq
  refine .pair (a := y.2.isdAs) ?_ rfl ?_
  · rw [List.getLast?_concat, Option.map_some, h.up.isdAs]
  · rw [List.tail_cons, List.map_append, List.nodup_append]
    refine ⟨hr.of_append_left, hq.of_append_right, ?_⟩
    intro c hc d hd
    obtain ⟨w, hw, rfl⟩ := List.mem_map.1 hc
    obtain ⟨z, hz, rfl⟩ := List.mem_map.1 hd
    refine h.last z hz w ?_
    rw [h.up.visited, List.append_cons]
    exact List.mem_append_left after hw

/-- What a truncation leaves over of two or three segments is free of loops. -/
theorem Truncates.loopFree {segments segments' : List (PathSegment μ)}
    {ranges ranges' : List SegmentRange}
    (h : Truncates source destination segments ranges segments' ranges')
    (hwhole : List.Forall₂ PathSegment.Whole segments ranges)
    (hleads : Leads start (segments.zip ranges) stop)
    (hcount : segments.length = 2 ∨ segments.length = 3)
    (hfirst : ∀ s ∈ segments.head?, s.Cuttable) (hlast : ∀ t ∈ segments.getLast?, t.Cuttable) :
    LoopFree ((segments'.zip ranges').map fun (s, r) => r.visited s) := by
  have hfits := hwhole.imp fun _ _ => PathSegment.Whole.fits
  cases h with
  | @untilDestination s r others tail before after x hvisit =>
      have hr := (hfirst s rfl).nodup_ases (List.forall₂_cons.1 hwhole).1
      rw [SegmentRange.ases, hvisit.visited, List.append_cons, List.map_append] at hr
      have hfree := LoopFree.single hr.of_append_left
      rw [← ((List.forall₂_cons.1 hfits).1.stop_behind hvisit.visited).2] at hfree
      exact hfree
  | alone havoids => simp at hcount
  | @fromSource s t r q between middle before after x havoids hvisit =>
      have ht : t.Cuttable := hlast t (getLast?_cons_concat s between t)
      have hq := ht.nodup_ases (forall₂_last hwhole)
      rw [SegmentRange.ases, hvisit.visited, List.map_append] at hq
      have hfree := LoopFree.single hq.of_append_right
      rw [← ((forall₂_last hfits).start_at hvisit.visited).2] at hfree
      exact hfree
  | @shortcut s t r q between middle before after lead rest x y havoids haway hcrossing =>
      have ht : t.Cuttable := hlast t (getLast?_cons_concat s between t)
      have hr := (hfirst s rfl).nodup_ases (List.forall₂_cons.1 hwhole).1
      have hq := ht.nodup_ases (forall₂_last hwhole)
      have hfree := hcrossing.loopFree hr hq
      rw [← ((List.forall₂_cons.1 hfits).1.stop_behind hcrossing.up.visited).2,
        ← ((forall₂_last hfits).start_at hcrossing.down).2] at hfree
      exact hfree
  | @whole s t r q between middle havoids haway hapart =>
      have ht : t.Cuttable := hlast t (getLast?_cons_concat s between t)
      have hs := (hfirst s rfl).noncore
      have hmiddle : between.length = middle.length := by simpa using hfits.length_eq
      rcases hcount with htwo | hthree
      · obtain rfl : between = [] := by simpa using htwo
        obtain rfl : middle = [] := List.length_eq_zero_iff.1 hmiddle.symm
        exact absurd hapart (hleads.not_apart hs ht.noncore)
      · obtain ⟨u, rfl⟩ : ∃ u, between = [u] := List.length_eq_one_iff.1 (by simpa using hthree)
        obtain ⟨p, rfl⟩ : ∃ p, middle = [p] := List.length_eq_one_iff.1 hmiddle.symm
        exact .triple (hapart hs ht.noncore)

end Ranges

/-- What a truncation leaves over of two or three segments that attach to each other, of which the
first and the last one may be cut, is free of loops. -/
theorem truncate_loopFree {segments : List (PathSegment μ)} {ranges : List SegmentRange}
    {start : IsdAs} (hcount : segments.length = 2 ∨ segments.length = 3)
    (hfirst : ∀ s ∈ segments.head?, s.Cuttable) (hlast : ∀ t ∈ segments.getLast?, t.Cuttable)
    (horient : PathSegment.orient start segments = some ranges) (source destination : IsdAs) :
    ∃ used walks, (truncate segments ranges source destination).result = .ok used ∧
      ((used.segments.zip used.ranges).mapM fun (s, r) => r.walk s) = .ok walks ∧
      walks.length = used.segments.length ∧ walks.length = used.ranges.length ∧
      1 ≤ walks.length ∧ walks.length ≤ 3 ∧ LoopFree walks := by
  have hne : segments ≠ [] := by
    rintro rfl
    simp at hcount
  have hwhole := PathSegment.forall₂_whole_orientFrom horient
  have hfits := PathSegment.forall₂_fits_orientFrom horient
  obtain ⟨stop, _, hleads⟩ := PathSegment.leads_orientFrom horient
  obtain ⟨used, hused, htruncates⟩ := exists_truncate hfits hne source destination
  have hleft := htruncates.fits hfits
  have hlength : ((used.segments.zip used.ranges).map fun (s, r) => r.visited s).length
      = used.segments.length := by
    rw [List.length_map, List.length_zip, hleft.length_eq, Nat.min_self]
  have hle := htruncates.length_le
  refine ⟨used, _, hused, mapM_walk_eq_ok hleft, hlength, hlength.trans hleft.length_eq, ?_, ?_,
    htruncates.loopFree hwhole hleads hcount hfirst hlast⟩
  · rw [hlength]
    exact List.length_pos_of_ne_nil htruncates.ne_nil
  · rw [hlength]
    omega

theorem truncate_loopFree_viaShortcut :
    (∀ s ∈ Candidate.viaShortcut.segments.head?, s.Cuttable) ∧
      (∀ t ∈ Candidate.viaShortcut.segments.getLast?, t.Cuttable) ∧
      ∃ ranges, PathSegment.orient leafTopology.isdAs Candidate.viaShortcut.segments = some ranges ∧
        ∃ used walks, (truncate Candidate.viaShortcut.segments ranges (.plain 1 112)
            (.plain 1 113)).result = .ok used ∧
          ((used.segments.zip used.ranges).mapM fun (s, r) => r.walk s) = .ok walks ∧
          walks.length = used.segments.length ∧ walks.length = used.ranges.length ∧
          1 ≤ walks.length ∧ walks.length ≤ 3 ∧ LoopFree walks := by
  have hfirst : ∀ s ∈ Candidate.viaShortcut.segments.head?, s.Cuttable := by decide
  have hlast : ∀ t ∈ Candidate.viaShortcut.segments.getLast?, t.Cuttable := by decide
  have horient : PathSegment.orient leafTopology.isdAs Candidate.viaShortcut.segments
      = some [⟨0, 2, -1, -1⟩, ⟨1, 0, 3, 1⟩] := rfl
  exact ⟨hfirst, hlast, _, horient, truncate_loopFree (.inl rfl) hfirst hlast horient _ _⟩

end PathAssembly
