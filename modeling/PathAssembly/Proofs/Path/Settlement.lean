import PathAssembly.Proofs.Path.Crossing

/-!
# What becomes of a candidate

A candidate without segments is the path inside the local AS, and one of more segments than a header
has slots is refused. Segments that do not attach to each other give no path. Those that do are
truncated, and then two things can go wrong: a range that is left over is too long for its slot, or
nobody owns the interface at which the path leaves the local AS. That is all. Every position that is
looked at is inside its segment, there is a hop field to expire, and every value fits its field.
-/

namespace PathAssembly

variable {μ : Type}

/-- A leg holds all that a range reads of its segment: as many entries as the range counts, at least
one of them, and every entry between the origin and the nearest of them. -/
structure SegmentRange.Reads (r : SegmentRange) (s : PathSegment μ) (leg : Leg) : Prop where
  ofRange_eq : Leg.ofRange s r = .ok leg
  length_entries : leg.entries.length = r.length
  entries_ne_nil : leg.entries ≠ []
  length_skipped : (leg.skipped.length : Int) = if r.reversed then r.last else r.start

theorem SegmentRange.Fits.reads {r : SegmentRange} {s : PathSegment μ} (h : r.Fits s) :
    r.Reads s (Leg.along s r) where
  ofRange_eq := Leg.ofRange_eq_ok h
  length_entries := Leg.length_along h
  entries_ne_nil := by
    rw [← List.length_pos_iff, Leg.length_along h]
    exact h.length_pos
  length_skipped := by
    have hlow : r.low ≤ s.entries.length := Nat.le_trans (Nat.le_of_lt h.low_lt_high) h.high_le
    rw [h.origin_eq, Leg.along, List.length_take, Nat.min_eq_left hlow]

/-- The ways in which the assembly ends once it is known which ranges and interfaces are used. -/
inductive Ends (topology : Topology) (ranges : List SegmentRange)
    (interfaces : List PathInterface) : Except Fault (Option (BuiltPath Unit)) → Prop
  | tooLong {r : SegmentRange} (hr : ranges.find? (PathHeader.maxHops < ·.length) = some r) :
      Ends topology ranges interfaces (.error (.rangeTooLong r.segmentIndex r.length))
  | noRouter {first : PathInterface} (hlengths : ∀ r ∈ ranges, r.length ≤ PathHeader.maxHops)
      (hfirst : interfaces.head? = some first)
      (hrouter : topology.borderRouters.get? first.id = none) :
      Ends topology ranges interfaces (.error (.noBorderRouter first.id topology.isdAs.render))
  | built (hlengths : ∀ r ∈ ranges, r.length ≤ PathHeader.maxHops)
      (hrouter : ∀ first, interfaces.head? = some first →
        topology.borderRouters.get? first.id ≠ none) (path : BuiltPath Unit) :
      Ends topology ranges interfaces (.ok (some path))

/-- When the assembly ends in which way, by the ranges and interfaces that are used. -/
structure Concludes (topology : Topology) (ranges : List SegmentRange)
    (interfaces : List PathInterface) (outcome : Except Fault (Option (BuiltPath Unit))) :
    Prop where
  invalid_iff : (∃ fault, outcome = .error fault ∧ fault.kind = .invalid) ↔
    ∃ r ∈ ranges, PathHeader.maxHops < r.length
  missingKey_iff : (∃ fault, outcome = .error fault ∧ fault.kind = .missingKey) ↔
    (∀ r ∈ ranges, r.length ≤ PathHeader.maxHops) ∧
      ∃ first, interfaces.head? = some first ∧ topology.borderRouters.get? first.id = none
  built_iff : (∃ path, outcome = .ok (some path)) ↔
    (∀ r ∈ ranges, r.length ≤ PathHeader.maxHops) ∧
      ∀ first, interfaces.head? = some first → topology.borderRouters.get? first.id ≠ none
  fault_eq : ∀ fault, outcome = .error fault →
    (∃ r, ranges.find? (PathHeader.maxHops < ·.length) = some r ∧
        fault = .rangeTooLong r.segmentIndex r.length) ∨
      ∃ first, interfaces.head? = some first ∧
        fault = .noBorderRouter first.id topology.isdAs.render

theorem Ends.concludes {topology : Topology} {ranges : List SegmentRange}
    {interfaces : List PathInterface} {outcome : Except Fault (Option (BuiltPath Unit))}
    (h : Ends topology ranges interfaces outcome) :
    Concludes topology ranges interfaces outcome := by
  cases h with
  | @tooLong r hr =>
      have hmem : r ∈ ranges := List.mem_of_find?_eq_some hr
      have hlong : PathHeader.maxHops < r.length := by simpa using List.find?_some hr
      have hnot : ¬ ∀ r ∈ ranges, r.length ≤ PathHeader.maxHops := fun hall =>
        Nat.not_le.2 hlong (hall r hmem)
      refine ⟨⟨fun _ => ⟨r, hmem, hlong⟩, fun _ => ⟨_, rfl, rfl⟩⟩,
        ⟨?_, fun h => absurd h.1 hnot⟩, ⟨?_, fun h => absurd h.1 hnot⟩, ?_⟩
      · rintro ⟨fault, hfault, hkind⟩
        cases hfault
        cases hkind
      · rintro ⟨path, hpath⟩
        cases hpath
      · rintro fault hfault
        cases hfault
        exact Or.inl ⟨r, hr, rfl⟩
  | @noRouter first hlengths hfirst hrouter =>
      refine ⟨⟨?_, ?_⟩, ⟨fun _ => ⟨hlengths, first, hfirst, hrouter⟩, fun _ => ⟨_, rfl, rfl⟩⟩,
        ⟨?_, fun h => absurd hrouter (h.2 first hfirst)⟩, ?_⟩
      · rintro ⟨fault, hfault, hkind⟩
        cases hfault
        cases hkind
      · rintro ⟨r, hr, hlong⟩
        exact absurd (hlengths r hr) (Nat.not_le.2 hlong)
      · rintro ⟨path, hpath⟩
        cases hpath
      · rintro fault hfault
        cases hfault
        exact Or.inr ⟨first, hfirst, rfl⟩
  | built hlengths hrouter path =>
      refine ⟨⟨?_, ?_⟩, ⟨?_, ?_⟩, ⟨fun _ => ⟨hlengths, hrouter⟩, fun _ => ⟨path, rfl⟩⟩, ?_⟩
      · rintro ⟨fault, hfault, _⟩
        cases hfault
      · rintro ⟨r, hr, hlong⟩
        exact absurd (hlengths r hr) (Nat.not_le.2 hlong)
      · rintro ⟨fault, hfault, _⟩
        cases hfault
      · rintro ⟨_, first, hfirst, hnone⟩
        exact absurd hnone (hrouter first hfirst)
      · rintro fault hfault
        cases hfault

namespace BuiltPath

theorem checkLength_eq_error {r : SegmentRange} (h : PathHeader.maxHops < r.length) :
    checkLength r = .error (.rangeTooLong r.segmentIndex r.length) := if_pos h

theorem result_checkLengths {ranges : List SegmentRange}
    (h : ∀ r ∈ ranges, r.length ≤ PathHeader.maxHops) :
    (ranges.forM fun r => Logged.ofExcept (checkLength r)).result = .ok () :=
  Outcome.result_forM_eq_ok_iff.2 fun r hr => checkLength_eq_ok_iff.2 (h r hr)

theorem result_checkLengths_of_find? {ranges : List SegmentRange} {r : SegmentRange}
    (h : ranges.find? (PathHeader.maxHops < ·.length) = some r) :
    (ranges.forM fun r => Logged.ofExcept (checkLength r)).result
      = .error (.rangeTooLong r.segmentIndex r.length) := by
  obtain ⟨hlong, before, after, rfl, hbefore⟩ := List.find?_eq_some_iff_append.1 h
  refine Outcome.result_forM_eq_error ?_ (checkLength_eq_error (of_decide_eq_true hlong))
  intro r hr
  have hshort := hbefore r hr
  exact checkLength_eq_ok_iff.2 (by simpa using hshort)

/-- Ranges that fit and that a slot can count are encoded, up to the first border router. -/
theorem exists_ofRanges (topology : Topology) {segments : List (PathSegment μ)}
    {ranges : List SegmentRange} (hfits : List.Forall₂ SegmentRange.Fits segments ranges)
    (hslots : segments.length ≤ PathHeader.maxSegments)
    (hlengths : ∀ r ∈ ranges, r.length ≤ PathHeader.maxHops) :
    ∃ path : String → BuiltPath Unit, ofRanges topology segments ranges
      = (firstHopOf topology ((Leg.alongAll segments ranges).flatMap Leg.interfaces)).map path := by
  have hcountable := Leg.countable_alongAll hfits hlengths
  rw [← Leg.length_alongAll hfits] at hslots
  obtain ⟨raw, hraw, _⟩ := PathHeader.decode_encode
    (PathHeader.encodable_ofLegs hcountable hslots) (PathHeader.hasGap_counts hcountable)
  obtain ⟨metadata, hmetadata⟩ : ∃ metadata, PathMetadata.collect segments ranges = .ok metadata :=
    ⟨_, PathMetadata.collect_eq_ok hfits⟩
  rw [Leg.counts_alongAll hfits] at hraw
  refine ⟨fun firstHop =>
    { raw
      mtu := ((Leg.alongAll segments ranges).flatMap Leg.mtus).foldl min topology.mtu
      expiration := ((Leg.alongAll segments ranges).flatMap Leg.expirations).min?.getD 0
      interfaces := (Leg.alongAll segments ranges).flatMap Leg.interfaces
      firstHop, metadata
      mark := () }, ?_⟩
  rw [ofRanges, Leg.mapM_ofRange_eq_ok hfits, Outcome.ok_bind, hraw, Outcome.ok_bind,
    hmetadata]
  change (firstHopOf topology ((Leg.alongAll segments ranges).flatMap Leg.interfaces) >>= _) = _
  cases firstHopOf topology ((Leg.alongAll segments ranges).flatMap Leg.interfaces) with
  | error fault => rfl
  | ok firstHop => rfl

/-- The first border router is missing exactly if nobody owns the first interface. -/
theorem ends_map_firstHopOf {topology : Topology} (hlocal : topology.isdAs.InRange)
    {ranges : List SegmentRange} (hlengths : ∀ r ∈ ranges, r.length ≤ PathHeader.maxHops)
    (interfaces : List PathInterface) (path : String → BuiltPath Unit) :
    Ends topology ranges interfaces
      ((firstHopOf topology interfaces).map path >>= fun path => .ok (some path)) := by
  cases interfaces with
  | nil =>
      refine .built hlengths ?_ (path "")
      intro first hfirst
      cases hfirst
  | cons first rest =>
      rw [firstHopOf, Topology.borderRouter]
      cases hrouter : topology.borderRouters.get? first.id with
      | none =>
          rw [IsdAs.format_eq_ok hlocal]
          exact .noRouter hlengths rfl hrouter
      | some address =>
          refine .built hlengths ?_ (path address)
          intro first' hfirst hnone
          cases hfirst
          rw [hrouter] at hnone
          cases hnone

end BuiltPath

/-- What becomes of a candidate, by the ways in which its segments attach to each other from the
local AS on and by what a truncation leaves over of them. -/
structure Candidate.Settles (c : Candidate μ) (topology : Topology) (now : Int)
    (outcome : Except Fault (Option (BuiltPath Unit))) : Prop where
  inside : c.segments = [] → outcome
    = .ok (some { raw := [0, 0, 0, 0], mtu := topology.mtu, expiration := now, mark := () })
  tooMany : PathHeader.maxSegments < c.segments.length →
    outcome = .error (.tooManySegments c.segments.length)
  detached_iff : c.segments ≠ [] → c.segments.length ≤ PathHeader.maxSegments →
    (outcome = .ok none ↔ ¬ ∃ stop, PathSegment.Chain topology.isdAs c.segments stop)
  attached : c.segments ≠ [] → c.segments.length ≤ PathHeader.maxSegments →
    (∃ stop, PathSegment.Chain topology.isdAs c.segments stop) →
    ∃ ranges used legs, PathSegment.orient topology.isdAs c.segments = some ranges ∧
      (truncate c.segments ranges c.source c.destination).result = .ok used ∧
      used.ranges ≠ [] ∧ used.segments.length = used.ranges.length ∧
      List.Forall₂ (fun (p : PathSegment μ × SegmentRange) leg => p.2.Reads p.1 leg)
        (used.segments.zip used.ranges) legs ∧
      Concludes topology used.ranges (legs.flatMap Leg.interfaces) outcome

namespace Candidate

variable {c : Candidate μ} {topology : Topology}

theorem result_build_of_detached (hne : c.segments ≠ [])
    (hslots : c.segments.length ≤ PathHeader.maxSegments) (hlocal : topology.isdAs.InRange)
    (horient : PathSegment.orient topology.isdAs c.segments = none) (now : Int) :
    (c.build topology now).result = .ok none := by
  simp only [build]
  rw [if_neg (isLocal_eq_false hne), if_neg (Nat.not_lt.2 hslots), horient]
  simp only [Logged.result_bind]
  rw [reportDetached, IsdAs.format_eq_ok hlocal]
  rfl

/-- What is left over of segments that attach to each other ends in one of the ways. -/
theorem ends_build (hlocal : topology.isdAs.InRange) (hne : c.segments ≠ [])
    (hslots : c.segments.length ≤ PathHeader.maxSegments) {ranges : List SegmentRange}
    (horient : PathSegment.orient topology.isdAs c.segments = some ranges) {used : Truncated μ}
    (hused : (truncate c.segments ranges c.source c.destination).result = .ok used)
    (hfits : List.Forall₂ SegmentRange.Fits used.segments used.ranges)
    (hle : used.segments.length ≤ c.segments.length) (now : Int) :
    Ends topology used.ranges ((Leg.alongAll used.segments used.ranges).flatMap Leg.interfaces)
      (c.build topology now).result := by
  rw [result_build_of_truncate hne hslots horient hused]
  -- all lengths are checked before anything is encoded
  cases hfind : used.ranges.find? (PathHeader.maxHops < ·.length) with
  | some r =>
      rw [BuiltPath.result_checkLengths_of_find? hfind]
      exact .tooLong hfind
  | none =>
      have hlengths : ∀ r ∈ used.ranges, r.length ≤ PathHeader.maxHops := by
        intro r hr
        have hshort := List.find?_eq_none.1 hfind r hr
        exact Nat.not_lt.1 (by simpa using hshort)
      obtain ⟨path, hpath⟩ := BuiltPath.exists_ofRanges topology hfits (Nat.le_trans hle hslots)
        hlengths
      rw [BuiltPath.result_checkLengths hlengths, Outcome.ok_bind, hpath]
      exact BuiltPath.ends_map_firstHopOf hlocal hlengths _ path

/-- A candidate ends as the path inside the local AS, without a path, with a path, or with one of
three faults. -/
theorem build_settles (hlocal : topology.isdAs.InRange) (c : Candidate μ) (now : Int) :
    c.Settles topology now (c.build topology now).result where
  inside hnil := result_build_of_nil hnil now
  tooMany hmany := result_build_of_tooMany hmany now
  detached_iff hne hslots := by
    rw [← PathSegment.exists_orientFrom_iff 0]
    constructor
    · rintro hnone ⟨ranges, horient⟩
      obtain ⟨path, hpath⟩ := exists_path_of_build horient hnone
      cases hpath
    · intro hdetached
      refine result_build_of_detached hne hslots hlocal ?_ now
      exact Option.eq_none_iff_forall_not_mem.2 fun ranges hranges => hdetached ⟨ranges, hranges⟩
  attached hne hslots hchain := by
    obtain ⟨ranges, horient⟩ := (PathSegment.exists_orientFrom_iff 0).2 hchain
    have hfits := PathSegment.forall₂_fits_orientFrom horient
    obtain ⟨used, hused, htruncates⟩ := exists_truncate hfits hne c.source c.destination
    have hfits' := htruncates.fits hfits
    refine ⟨ranges, used, Leg.alongAll used.segments used.ranges, horient, hused, ?_,
      hfits'.length_eq, ?_, ?_⟩
    · intro hnil
      rw [hnil] at hfits'
      exact htruncates.ne_nil (List.forall₂_nil_right_iff.1 hfits')
    · rw [Leg.alongAll, List.forall₂_map_right_iff, List.forall₂_same]
      rintro ⟨s, r⟩ hmem
      exact (List.forall₂_zip hfits' hmem).reads
    · exact (ends_build hlocal hne hslots horient hused hfits' htruncates.length_le now).concludes

theorem build_settles_viaShortcut : leafTopology.isdAs.InRange ∧
    viaShortcut.Settles leafTopology 0 (viaShortcut.build leafTopology 0).result :=
  ⟨by decide, build_settles (by decide) viaShortcut 0⟩

end Candidate

end PathAssembly
