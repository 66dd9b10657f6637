import PathAssembly.Proofs.Lookup.Protocol
import PathAssembly.Proofs.Path.Contribution
import PathAssembly.Proofs.Path.Loops
import PathAssembly.Proofs.Path.Transit

/-!
# One transit for every AS between the ends

Positions are in transit by the rules for their slots, which do not look at the ASes. A range with a
single entry would therefore be counted wrongly in some slots. Such ranges do not come up there: a
range alone goes from the source to another AS, the last one of two does not start at the
destination, and the one between two others keeps those apart. Every path of a candidate thus gives
one number of hops for each AS between its ends and none for the ends.
-/

namespace PathAssembly

variable {μ : Type} {source destination a b : IsdAs}

namespace SegmentRange

variable {s : PathSegment μ} {r : SegmentRange}

theorem one_lt_length_visited (hentry : r.entryAs s = some a) (hexit : r.exitAs s = some b)
    (hne : a ≠ b) : 1 < (r.visited s).length := by
  by_contra hlength
  rw [entryAs] at hentry
  rw [exitAs] at hexit
  obtain ⟨x, hx, rfl⟩ := Option.map_eq_some_iff.1 hentry
  obtain ⟨rest, hvisited⟩ := List.head?_eq_some_iff.1 hx
  rw [hvisited, List.length_cons] at hlength
  obtain rfl : rest = [] := List.length_eq_zero_iff.1 (by omega)
  rw [hvisited] at hexit
  exact hne (Option.some.inj hexit)

end SegmentRange

theorem PathSegment.Whole.hasEnd_of_exitAs {s : PathSegment μ} {r : SegmentRange} (h : s.Whole r)
    (hexit : r.exitAs s = some b) : s.hasEnd b = true := by
  rw [hasEnd, Bool.or_eq_true, beq_iff_eq, beq_iff_eq]
  cases h with
  | forward index =>
      rw [exitAs_forwardRange] at hexit
      exact Or.inr (Option.some.inj hexit)
  | reverse index =>
      rw [exitAs_reverseRange] at hexit
      exact Or.inl (Option.some.inj hexit)

theorem Leads.spans {s : PathSegment μ} {r : SegmentRange} (h : Leads a ([s].zip [r]) b)
    (hne : a ≠ b) : Spans [s] [r] := by
  cases h with
  | cons hentry hexit hrest =>
      cases hrest
      exact .one (SegmentRange.one_lt_length_visited hentry hexit hne)

theorem Truncates.spans_single {s : PathSegment μ} {r : SegmentRange}
    {segments' : List (PathSegment μ)} {ranges' : List SegmentRange}
    (h : Truncates source destination [s] [r] segments' ranges') (hwhole : s.Whole r)
    (hentry : r.entryAs s = some source) (hsource : s.contains source = true)
    (hdestination : s.contains destination = true) (hne : source ≠ destination) :
    Spans segments' ranges' := by
  by_cases hmeets : Meets s r destination
  · have hleads := h.leads_destination hwhole.fits hentry hmeets
    obtain ⟨_, _, _, _, rfl, rfl⟩ := h.exists_firstVisit hmeets
    exact hleads.spans hne
  · obtain ⟨rfl, rfl⟩ := h.eq_of_avoids hmeets
    refine .one ?_
    rw [hwhole.length_visited]
    exact PathSegment.one_lt_length hsource hdestination hne

/-- Nothing can be left out of two ranges: the second one does not start at the destination. -/
theorem spans_pair {s t : PathSegment μ} {r q : SegmentRange}
    (hleads : Leads source [(s, r), (t, q)] destination) (hwhole : s.Whole r)
    (hcore : s.isCore = true → s.hasEnd destination = false) (havoids : ¬ Meets s r destination) :
    Spans [s, t] [r, q] := by
  obtain ⟨m, hexit, hentry, hstop⟩ := hleads.exists_change
  refine .two (SegmentRange.one_lt_length_visited hentry hstop ?_)
  rintro rfl
  cases hs : s.isCore with
  | true =>
      rw [hwhole.hasEnd_of_exitAs hexit] at hcore
      cases hcore hs
  | false => exact havoids ⟨hs, SegmentRange.exists_visited_of_exitAs hexit⟩

/-- Nothing can be left out of three ranges: the second one lies between ranges that are apart. -/
theorem spans_triple {s u t : PathSegment μ} {r p q : SegmentRange}
    (hleads : Leads source [(s, r), (u, p), (t, q)] destination) (hs : s.isCore = false)
    (ht : t.isCore = false) (hapart : Apart s t r q) : Spans [s, u, t] [r, p, q] := by
  cases hleads with
  | @cons _ m _ _ _ _ hstart hexit hrest =>
      cases hrest with
      | @cons _ k _ _ _ _ hentry hleft hlast =>
          refine .three (SegmentRange.one_lt_length_visited hentry hleft ?_)
          rintro rfl
          exact (Leads.cons hstart hexit hlast).not_apart hs ht hapart

theorem Candidate.Stages.length_le {segments : List (PathSegment μ)}
    (h : Candidate.Stages destination segments) : segments.length ≤ 3 := by
  cases h with
  | two _ => exact Nat.le_succ 2
  | three _ _ => exact Nat.le_refl 3

/-- What is left of segments that join the source to the destination. -/
theorem Truncates.spans_joined {segments segments' : List (PathSegment μ)}
    {ranges ranges' : List SegmentRange}
    (h : Truncates source destination segments ranges segments' ranges')
    (hstages : Candidate.Stages destination segments)
    (hwhole : List.Forall₂ PathSegment.Whole segments ranges)
    (hleads : Leads source (segments.zip ranges) destination) (hne : source ≠ destination) :
    Spans segments' ranges' := by
  have hfits : List.Forall₂ SegmentRange.Fits segments ranges :=
    hwhole.imp fun _ _ => PathSegment.Whole.fits
  have htruncates := h
  cases h with
  | untilDestination hvisit =>
      have hr := (List.forall₂_cons.1 hwhole).1
      rw [List.zip_cons_cons] at hleads
      exact (htruncates.leads_destination hr.fits hleads.entryAs_head hvisit.meets).spans hne
  | alone _ => cases hstages
  | fromSource havoids _ => exact (htruncates.leads_stop hfits hleads havoids).spans hne
  | @shortcut s t r q _ _ _ _ _ _ _ y havoids _ hcrossing =>
      have hused := htruncates.leads_stop hfits hleads havoids
      obtain ⟨m, _, hentry, hstop⟩ := hused.exists_change
      refine .two (SegmentRange.one_lt_length_visited hentry hstop ?_)
      rintro rfl
      -- the ranges cross at an AS of the first one, where the destination is not met
      have hchange := (forall₂_last hfits).entryAs_start_at hcrossing.down
      rw [Option.some.inj (hentry.symm.trans hchange)] at havoids
      exact havoids hcrossing.up.meets
  | @whole s t r q between middle havoids _ hapart =>
      have hlength := length_between hfits
      have hr := (List.forall₂_cons.1 hwhole).1
      rcases between with _ | ⟨u, _ | ⟨_, between⟩⟩
      · obtain rfl := List.length_eq_zero_iff.1 hlength.symm
        cases hstages with
        | two hcore => exact spans_pair hleads hr hcore havoids
      · obtain ⟨p, rfl⟩ := List.length_eq_one_iff.1 hlength.symm
        cases hstages with
        | three hup hdown => exact spans_triple hleads hup hdown hapart
      · have hthree := hstages.length_le
        simp only [List.length_cons, List.length_append, List.length_nil] at hthree
        omega

namespace Candidate

theorem Proposes.spans {localIsCore : Bool} {c : Candidate μ} {ranges : List SegmentRange}
    {used : Truncated μ} (h : Proposes source destination localIsCore c)
    (hne : source ≠ destination) (horient : PathSegment.orient source c.segments = some ranges)
    (htruncates : Truncates source destination c.segments ranges used.segments used.ranges) :
    Spans used.segments used.ranges := by
  have hwhole := PathSegment.forall₂_whole_orientFrom horient
  have hsingle : ∀ s : PathSegment μ, c.segments = [s] → s.contains source = true →
      s.contains destination = true → Spans used.segments used.ranges := by
    intro s hsegments hsource hdestination
    rw [hsegments] at horient hwhole htruncates
    obtain ⟨_, r, _, rfl, _, hr, hentry, _, hnil⟩ := PathSegment.orientFrom_cons horient
    cases hnil
    exact htruncates.spans_single hr hentry hsource hdestination hne
  cases h with
  | joined hstages hfar =>
      obtain ⟨stop, hstop, hleads⟩ := PathSegment.leads_orientFrom horient
      obtain rfl := Option.some.inj (hfar.symm.trans hstop)
      exact htruncates.spans_joined hstages hwhole hleads hne
  | onPath _ hsource hdestination => exact hsingle _ rfl hsource hdestination
  | @onCore s _ _ hlast hdestination =>
      refine hsingle s rfl ?_ hdestination
      rw [← hlast]
      exact s.contains_last

theorem Proposes.segments_ne_nil {localIsCore : Bool} {c : Candidate μ}
    (h : Proposes source destination localIsCore c) : c.segments ≠ [] := by
  cases h with
  | joined hstages _ => cases hstages <;> exact List.cons_ne_nil _ _
  | onPath _ _ _ => exact List.cons_ne_nil _ _
  | onCore _ _ _ _ => exact List.cons_ne_nil _ _

theorem Proposes.ends_eq {localIsCore : Bool} {c : Candidate μ}
    (h : Proposes source destination localIsCore c) :
    c.source = source ∧ c.destination = destination := by
  cases h <;> exact ⟨rfl, rfl⟩

end Candidate

/-- Of the groups of visits of a path, one for each AS, every one but the first and the last gives
one number of hops, and those two give none. -/
structure BuiltPath.TransitsOnce (path : BuiltPath Unit) (groups : List (List Visit)) : Prop where
  length_interfaces : path.interfaces.length + 2 = 2 * groups.length
  internalHops_eq : path.metadata.internalHops = groups.flatMap (·.flatMap Visit.throughHops)
  through_eq : (groups.map fun group => (group.flatMap Visit.throughHops).length)
    = through (groups.length - 2)

namespace BuiltPath.TransitsOnce

variable {path : BuiltPath Unit} {groups : List (List Visit)}

/-- There is a transit for every two interfaces but the first and the last. -/
theorem length_internalHops (h : path.TransitsOnce groups) :
    (path.metadata.internalHops.length : Int) = path.interfaces.length / 2 - 1 := by
  have hgroups := congrArg List.length h.through_eq
  rw [List.length_map, length_through] at hgroups
  have hinterfaces := h.length_interfaces
  rw [h.internalHops_eq, List.length_flatMap, h.through_eq, sum_through]
  omega

end BuiltPath.TransitsOnce

namespace Candidate

/-- A path along ranges that span their ASes transits each of them once. -/
theorem Assembles.transitsOnce {c : Candidate μ} {topology : Topology} {ranges : List SegmentRange}
    {used : Truncated μ} {path : BuiltPath Unit} (h : c.Assembles topology ranges used path)
    (hspans : Spans used.segments used.ranges)
    (hgroups : List.Forall₂ VisitsOf (route a (used.segments.zip used.ranges))
      (asVisits (PathMetadata.slotsAlong used.segments used.ranges))) :
    path.TransitsOnce (asVisits (PathMetadata.slotsAlong used.segments used.ranges)) := by
  obtain ⟨_, hinterfaces, _, _, _, hmetadata⟩ := BuiltPath.ofRanges_eq_ok h.fits h.built
  obtain ⟨n, hn⟩ := hspans.exists_through h.fits
  have hcount := congrArg List.length hn
  rw [List.length_map, length_through] at hcount
  rw [PathMetadata.collect_eq_ok h.fits] at hmetadata
  refine ⟨?_, ?_, ?_⟩
  · rw [hinterfaces, Leg.length_interfaces_alongAll h.fits, ← hgroups.length_eq, route,
      List.length_cons, Nat.mul_succ]
  · rw [← Except.ok.inj hmetadata, PathMetadata.internalHops_ofVisits, ← flatten_asVisits,
      List.flatten_eq_flatMap, List.flatMap_assoc]
    rfl
  · simp only [Visit.length_flatMap_throughHops]
    rw [hn, hcount]
    rfl

/-- Every path of a candidate between different ASes gives one number of hops for each AS between
its first and its last one, and none for these two. -/
theorem build_transits {service : Service μ} {localIsCore minimize : Bool}
    {candidates : List (Candidate μ)} {c : Candidate μ} {topology : Topology} {now : Int}
    {path : BuiltPath Unit} (hne : source ≠ destination) (hlocal : topology.isdAs = source)
    (hcandidates : (combine service source destination localIsCore minimize).outcome.result
      = .ok candidates)
    (hc : c ∈ candidates) (hbuild : (c.build topology now).result = .ok (some path)) :
    (path.metadata.internalHops.length : Int) = path.interfaces.length / 2 - 1 ∧
      ∃ ranges used slots, PathSegment.orient source c.segments = some ranges ∧
        (truncate c.segments ranges source destination).result = .ok used ∧
        ((used.segments.zip used.ranges).zipIdx.mapM fun ((s, r), slot) =>
          PathMetadata.slotVisits slot used.ranges.length s r) = .ok slots ∧
        List.Forall₂ VisitsOf (route source (used.segments.zip used.ranges)) (asVisits slots) ∧
        path.TransitsOnce (asVisits slots) := by
  have hproposes := proposes_of_gives_combine hne hcandidates c hc
  obtain ⟨ranges, used, hused⟩ := assembles_of_build hproposes.segments_ne_nil hbuild
  obtain ⟨hsource, hdestination⟩ := hproposes.ends_eq
  have horient := hused.oriented
  have htruncated := hused.truncated
  have htruncates := hused.truncates
  rw [hlocal] at horient
  rw [hsource, hdestination] at htruncated htruncates
  have hspans := hproposes.spans hne horient htruncates
  obtain ⟨stop, hleads⟩ := hused.exists_leads hproposes.segments_ne_nil (hlocal.trans hsource.symm)
  rw [hsource] at hleads
  have hgroups := hleads.visitsOf_asVisits hspans.zip_ne_nil
    (map_isdAs_slotsAlong used.segments used.ranges)
  have honce := hused.transitsOnce hspans hgroups
  exact ⟨honce.length_internalHops, ranges, used, _, horient, htruncated,
    PathMetadata.mapM_slotVisits_eq_ok hused.fits, hgroups, honce⟩

/-- The segments of the candidate through a shortcut, as answers. -/
def shortcutStore : SegmentStore Unit :=
  (SegmentStore.add {} ⟨.plain 1 112, .plain 1 0⟩
    [.plain .up (.plain 1 110 0 1) [.plain 1 111 2 3, .plain 1 112 4 0]]).add
      ⟨.plain 1 0, .plain 1 113⟩
      [.plain .down (.plain 1 110 0 5) [.plain 1 111 6 7, .plain 1 113 8 0]]

theorem build_transits_viaShortcut :
    viaShortcut.source ≠ viaShortcut.destination ∧ leafTopology.isdAs = viaShortcut.source ∧
      (combine shortcutStore.service viaShortcut.source viaShortcut.destination false
        false).outcome.result = .ok [viaShortcut] ∧
      ∃ path, (viaShortcut.build leafTopology 0).result = .ok (some path) ∧
        path.interfaces.length = 4 ∧ path.metadata.internalHops.length = 1 := by
  have hcombine : (combine shortcutStore.service viaShortcut.source viaShortcut.destination false
      false).outcome.result = .ok [viaShortcut] := rfl
  obtain ⟨path, hpath, hinterfaces⟩ : ∃ path, (viaShortcut.build leafTopology 0).result
      = .ok (some path) ∧ path.interfaces.length = 4 := ⟨_, rfl, rfl⟩
  obtain ⟨hlength, _⟩ :=
    build_transits (by decide) rfl hcombine (List.mem_singleton_self viaShortcut) hpath
  rw [hinterfaces] at hlength
  exact ⟨by decide, rfl, hcombine, path, hpath, hinterfaces, by omega⟩

end Candidate

end PathAssembly
