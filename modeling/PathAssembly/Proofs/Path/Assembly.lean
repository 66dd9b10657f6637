import PathAssembly.Path.Assembly
import PathAssembly.Proofs.Path.Leg
import PathAssembly.Proofs.Path.Truncation

/-!
# Assembled paths on the wire

A candidate that gives a path is oriented, truncated and encoded, in this order. The header of the
path decodes, and to what the used ranges say: their lengths, the direction and the time of each
segment, and the hop fields of the visited entries. Encoding what was decoded gives the octets back.
-/

namespace PathAssembly

variable {μ : Type}

namespace PathMetadata

def visitsAlong (slot count : Nat) (s : PathSegment μ) (r : SegmentRange) : List Visit :=
  (r.visited s).map fun (position, entry) =>
    { entry, reversed := r.reversed, transit := isTransit slot count position r }

theorem slotVisits_eq_ok {s : PathSegment μ} {r : SegmentRange} (h : r.Fits s)
    (slot count : Nat) : slotVisits slot count s r = .ok (visitsAlong slot count s r) := by
  rw [slotVisits, SegmentRange.walk_eq_ok h]
  rfl

def slotsAlong (segments : List (PathSegment μ)) (ranges : List SegmentRange) :
    List (List Visit) :=
  (segments.zip ranges).zipIdx.map fun ((s, r), slot) => visitsAlong slot ranges.length s r

theorem mapM_slotVisits_eq_ok {segments : List (PathSegment μ)} {ranges : List SegmentRange}
    (h : List.Forall₂ SegmentRange.Fits segments ranges) :
    ((segments.zip ranges).zipIdx.mapM fun ((s, r), slot) => slotVisits slot ranges.length s r)
      = .ok (slotsAlong segments ranges) := by
  apply Outcome.mapM_eq_ok_map
  rintro ⟨⟨s, r⟩, slot⟩ hmem
  exact slotVisits_eq_ok (List.forall₂_zip h (List.fst_mem_of_mem_zipIdx hmem)) slot ranges.length

theorem collect_eq_ok {segments : List (PathSegment μ)} {ranges : List SegmentRange}
    (h : List.Forall₂ SegmentRange.Fits segments ranges) :
    collect segments ranges = .ok (ofVisits none (slotsAlong segments ranges).flatten) := by
  rw [collect, visits, mapM_slotVisits_eq_ok h]
  rfl

end PathMetadata

namespace BuiltPath

theorem checkLength_eq_ok_iff {r : SegmentRange} :
    checkLength r = .ok () ↔ r.length ≤ PathHeader.maxHops := by
  unfold checkLength
  split
  · rename_i h
    constructor
    · intro herror
      cases herror
    · intro hle
      exact absurd h (Nat.not_lt.2 hle)
  · rename_i h
    constructor
    · intro _
      exact Nat.not_lt.1 h
    · intro _
      rfl

/-- A path along ranges that fit is made of their legs. -/
theorem ofRanges_eq_ok {topology : Topology} {segments : List (PathSegment μ)}
    {ranges : List SegmentRange} {path : BuiltPath Unit}
    (hfits : List.Forall₂ SegmentRange.Fits segments ranges)
    (h : ofRanges topology segments ranges = .ok path) :
    (PathHeader.ofLegs (Leg.counts (Leg.alongAll segments ranges))
        (Leg.alongAll segments ranges)).encode = .ok path.raw ∧
      path.interfaces = (Leg.alongAll segments ranges).flatMap Leg.interfaces ∧
      path.mtu = ((Leg.alongAll segments ranges).flatMap Leg.mtus).foldl min topology.mtu ∧
      path.expiration = ((Leg.alongAll segments ranges).flatMap Leg.expirations).min?.getD 0 ∧
      firstHopOf topology path.interfaces = .ok path.firstHop ∧
      PathMetadata.collect segments ranges = .ok path.metadata := by
  rw [Leg.counts_alongAll hfits]
  rw [ofRanges, Leg.mapM_ofRange_eq_ok hfits, Outcome.ok_bind] at h
  obtain ⟨raw, hraw, h⟩ := Outcome.bind_eq_ok_iff.1 h
  obtain ⟨firstHop, hfirst, h⟩ := Outcome.bind_eq_ok_iff.1 h
  obtain ⟨metadata, hmetadata, h⟩ := Outcome.bind_eq_ok_iff.1 h
  cases h
  exact ⟨hraw, rfl, rfl, rfl, hfirst, hmetadata⟩

end BuiltPath

/-- A path is assembled from a candidate along these ranges: all of those of the candidate, and
those that are used. -/
structure Candidate.Assembles (c : Candidate μ) (topology : Topology) (ranges : List SegmentRange)
    (used : Truncated μ) (path : BuiltPath Unit) : Prop where
  oriented : PathSegment.orient topology.isdAs c.segments = some ranges
  truncated : (truncate c.segments ranges c.source c.destination).result = .ok used
  truncates : Truncates c.source c.destination c.segments ranges used.segments used.ranges
  fits : List.Forall₂ SegmentRange.Fits used.segments used.ranges
  length_le : used.segments.length ≤ PathHeader.maxSegments
  lengths_le : ∀ r ∈ used.ranges, r.length ≤ PathHeader.maxHops
  built : BuiltPath.ofRanges topology used.segments used.ranges = .ok path

namespace Candidate

theorem isLocal_eq_false {c : Candidate μ} (hne : c.segments ≠ []) : ¬ c.isLocal = true := by
  rw [isLocal, List.isEmpty_iff]
  exact hne

theorem result_build_of_tooMany {c : Candidate μ} {topology : Topology}
    (h : PathHeader.maxSegments < c.segments.length) (now : Int) :
    (c.build topology now).result = .error (.tooManySegments c.segments.length) := by
  have hne : c.segments ≠ [] := List.ne_nil_of_length_pos (Nat.lt_of_le_of_lt (Nat.zero_le _) h)
  simp only [build]
  rw [if_neg (isLocal_eq_false hne), if_pos h]
  rfl

/-- What is left over of oriented segments is checked for its lengths and then encoded. -/
theorem result_build_of_truncate {c : Candidate μ} {topology : Topology} (hne : c.segments ≠ [])
    (hslots : c.segments.length ≤ PathHeader.maxSegments) {ranges : List SegmentRange}
    (horient : PathSegment.orient topology.isdAs c.segments = some ranges) {used : Truncated μ}
    (hused : (truncate c.segments ranges c.source c.destination).result = .ok used) (now : Int) :
    (c.build topology now).result
      = (used.ranges.forM fun r => Logged.ofExcept (BuiltPath.checkLength r)).result >>= fun _ =>
        BuiltPath.ofRanges topology used.segments used.ranges >>= fun path => .ok (some path) := by
  simp only [build]
  rw [if_neg (isLocal_eq_false hne), if_neg (Nat.not_lt.2 hslots), horient]
  simp only [Logged.result_bind]
  rw [hused, Outcome.ok_bind]
  rfl

/-- A candidate with segments that gives a path is oriented and truncated, and what is left over is
encoded. -/
theorem assembles_of_build {c : Candidate μ} {topology : Topology} {now : Int}
    {path : BuiltPath Unit} (hne : c.segments ≠ [])
    (h : (c.build topology now).result = .ok (some path)) :
    ∃ ranges used, c.Assembles topology ranges used path := by
  rcases Nat.lt_or_ge PathHeader.maxSegments c.segments.length with hmany | hslots
  · rw [result_build_of_tooMany hmany] at h
    cases h
  cases horient : PathSegment.orient topology.isdAs c.segments with
  | none =>
      simp only [build] at h
      rw [if_neg (isLocal_eq_false hne), if_neg (Nat.not_lt.2 hslots), horient] at h
      simp only [Logged.result_bind] at h
      obtain ⟨_, _, h⟩ := Outcome.bind_eq_ok_iff.1 h
      cases h
  | some ranges =>
      have hfits := PathSegment.forall₂_fits_orientFrom horient
      obtain ⟨used, hused, htruncates⟩ := exists_truncate hfits hne c.source c.destination
      rw [result_build_of_truncate hne hslots horient hused] at h
      obtain ⟨_, hlengths, h⟩ := Outcome.bind_eq_ok_iff.1 h
      obtain ⟨built, hbuilt, h⟩ := Outcome.bind_eq_ok_iff.1 h
      cases h
      exact ⟨ranges, used, horient, hused, htruncates, htruncates.fits hfits,
        Nat.le_trans htruncates.length_le hslots, fun r hr =>
          BuiltPath.checkLength_eq_ok_iff.1 (Outcome.result_forM_eq_ok_iff.1 hlengths r hr),
        hbuilt⟩

/-- Nothing but segments that do not attach to each other gives no path. -/
theorem exists_path_of_build {c : Candidate μ} {topology : Topology} {now : Int}
    {ranges : List SegmentRange} {built : Option (BuiltPath Unit)}
    (horient : PathSegment.orient topology.isdAs c.segments = some ranges)
    (h : (c.build topology now).result = .ok built) : ∃ path, built = some path := by
  simp only [build] at h
  split_ifs at h with hlocal hslots
  · simp only [Logged.result_bind] at h
    obtain ⟨path, _, h⟩ := Outcome.bind_eq_ok_iff.1 h
    cases h
    exact ⟨path, rfl⟩
  · cases h
  · rw [horient] at h
    simp only [Logged.result_bind] at h
    obtain ⟨used, _, h⟩ := Outcome.bind_eq_ok_iff.1 h
    obtain ⟨_, _, h⟩ := Outcome.bind_eq_ok_iff.1 h
    obtain ⟨path, _, h⟩ := Outcome.bind_eq_ok_iff.1 h
    cases h
    exact ⟨path, rfl⟩

end Candidate

namespace Candidate.Assembles

variable {c : Candidate μ} {topology : Topology} {ranges : List SegmentRange} {used : Truncated μ}
  {path : BuiltPath Unit}

theorem countable (h : c.Assembles topology ranges used path) :
    ∀ leg ∈ Leg.alongAll used.segments used.ranges, leg.Countable :=
  Leg.countable_alongAll h.fits h.lengths_le

theorem decode_raw (h : c.Assembles topology ranges used path) :
    PathHeader.decode path.raw
        = .ok (PathHeader.ofLegs (Leg.counts (Leg.alongAll used.segments used.ranges))
          (Leg.alongAll used.segments used.ranges)).padded ∧
      path.raw.length = PathHeader.announcedLength
        (Leg.counts (Leg.alongAll used.segments used.ranges)) ∧
      (PathHeader.ofLegs (Leg.counts (Leg.alongAll used.segments used.ranges))
          (Leg.alongAll used.segments used.ranges)).padded.encode = .ok path.raw := by
  have hslots : (Leg.alongAll used.segments used.ranges).length ≤ PathHeader.maxSegments := by
    rw [Leg.length_alongAll h.fits]
    exact h.length_le
  have hencodable := PathHeader.encodable_ofLegs h.countable hslots
  obtain ⟨hraw, _⟩ := BuiltPath.ofRanges_eq_ok h.fits h.built
  obtain ⟨raw, hencode, hlength, hdecode⟩ :=
    PathHeader.decode_encode hencodable (PathHeader.hasGap_counts h.countable)
  obtain rfl : raw = path.raw := Except.ok.inj (hencode.symm.trans hraw)
  have hwhole := hdecode []
  rw [List.append_nil] at hwhole
  rw [PathHeader.encode_padded hencodable]
  exact ⟨hwhole, hlength, hencode⟩

theorem interfacePairs_raw (h : c.Assembles topology ranges used path) :
    interfacePairs path.raw = .ok ((Leg.alongAll used.segments used.ranges).flatMap fun leg =>
      PathHeader.hopCrossings (!leg.reversed) leg.hops) := by
  rw [interfacePairs, h.decode_raw.1, Outcome.ok_bind, PathHeader.crossings_ofLegs]

end Candidate.Assembles

/-- What the octets of a path say about the ranges that it follows. -/
structure Carries (raw : List UInt8) (header : PathHeader) (segments : List (PathSegment μ))
    (ranges : List SegmentRange) : Prop where
  decode_raw : PathHeader.decode raw = .ok header
  lengths_eq : header.lengths = (ranges.map fun r => (r.length : Int))
    ++ List.replicate (3 - ranges.length) 0
  length_lengths : header.lengths.length = 3
  lengths_mem_range : ∀ r ∈ ranges, 1 ≤ r.length ∧ r.length ≤ 63
  infos : List.Forall₂ (fun (p : PathSegment μ × SegmentRange) (info : InfoField) =>
    (info.constructionDirection = true ↔ p.2.step = 1) ∧
      info.timestamp = p.1.info.timestamp.toNat ∧ info.peer = false)
    (segments.zip ranges) header.infos
  hops : ∃ walks, ((segments.zip ranges).mapM fun (s, r) => r.walk s) = .ok walks ∧
    header.hops = walks.flatten.map fun (_, entry) =>
      { ingress := entry.hop.ingress.toNat
        egress := entry.hop.egress.toNat
        mac := entry.hop.mac.octets
        expiry := entry.hop.expiry.toNat
        ingressAlert := false
        egressAlert := false }
  currInf_eq : header.currInf = 0
  currHf_eq : header.currHf = 0
  length_raw : raw.length = 4 + 8 * ranges.length + 12 * (ranges.map (·.length)).sum
  encode_header : header.encode = .ok raw

theorem mapM_walk_eq_ok {segments : List (PathSegment μ)} {ranges : List SegmentRange}
    (h : List.Forall₂ SegmentRange.Fits segments ranges) :
    ((segments.zip ranges).mapM fun (s, r) => r.walk s)
      = .ok ((segments.zip ranges).map fun (s, r) => r.visited s) := by
  apply Outcome.mapM_eq_ok_map
  rintro ⟨s, r⟩ hmem
  exact SegmentRange.walk_eq_ok (List.forall₂_zip h hmem)

theorem hopCount_lengths (ranges : List SegmentRange) :
    PathHeader.hopCount (ranges.map fun r => (r.length : Int))
      = ((ranges.map (·.length)).sum : Nat) := by
  induction ranges with
  | nil => rfl
  | cons r rest ih =>
      rw [List.map_cons, PathHeader.hopCount, ih, List.map_cons, List.sum_cons, Int.natCast_add]

theorem length_pos_of_fits {segments : List (PathSegment μ)} {ranges : List SegmentRange}
    (h : List.Forall₂ SegmentRange.Fits segments ranges) : ∀ r ∈ ranges, 0 < r.length := by
  induction h with
  | nil =>
      intro r hr
      cases hr
  | cons hfits _ ih =>
      intro r hr
      rcases List.mem_cons.1 hr with rfl | hr
      · exact hfits.length_pos
      · exact ih r hr

theorem flatMap_hops (segments : List (PathSegment μ)) (ranges : List SegmentRange) :
    (Leg.alongAll segments ranges).flatMap Leg.hops
      = ((segments.zip ranges).map fun (s, r) => r.visited s).flatten.map
        fun (_, entry) => WireHop.ofHopField entry.hop := by
  rw [Leg.alongAll, List.flatMap_map, List.map_flatten, List.map_map, ← List.flatMap_def]
  congr 1
  funext pair
  exact List.map_map

/-- The octets of a path decode to the ranges that were left over, and encode back. -/
theorem Candidate.build_carries {c : Candidate μ} {topology : Topology} {now : Int}
    {path : BuiltPath Unit} (hne : c.segments ≠ [])
    (h : (c.build topology now).result = .ok (some path)) :
    ∃ ranges used header, PathSegment.orient topology.isdAs c.segments = some ranges ∧
      (truncate c.segments ranges c.source c.destination).result = .ok used ∧
      used.segments.length = used.ranges.length ∧
      Carries path.raw header used.segments used.ranges := by
  obtain ⟨ranges, used, hused⟩ := assembles_of_build hne h
  obtain ⟨hdecode, hlength, hencode⟩ := hused.decode_raw
  have hlegs : (Leg.counts (Leg.alongAll used.segments used.ranges)).length
      ≤ PathHeader.maxSegments := by
    rw [Leg.counts, List.length_map, Leg.length_alongAll hused.fits]
    exact hused.length_le
  have hlengths : PathHeader.padLengths (Leg.counts (Leg.alongAll used.segments used.ranges))
      = (used.ranges.map fun r => (r.length : Int))
        ++ List.replicate (3 - used.ranges.length) 0 := by
    rw [PathHeader.padLengths, Leg.counts_alongAll hused.fits, List.length_map]
    rfl
  refine ⟨ranges, used, _, hused.oriented, hused.truncated, hused.fits.length_eq, hdecode,
    hlengths, ?_, ?_, ?_, ?_, rfl, rfl, ?_, hencode⟩
  · exact PathHeader.length_padLengths hlegs
  · intro r hr
    exact ⟨length_pos_of_fits hused.fits r hr, hused.lengths_le r hr⟩
  · change List.Forall₂ _ _ ((Leg.alongAll used.segments used.ranges).map Leg.infoField)
    rw [Leg.alongAll, List.map_map, List.forall₂_map_right_iff, List.forall₂_same]
    rintro ⟨s, r⟩ hmem
    have hfits := List.forall₂_zip hused.fits hmem
    refine ⟨?_, rfl, rfl⟩
    rw [← hfits.reversed_eq_false_iff]
    exact Iff.of_eq (Bool.not_eq_true' r.reversed)
  · exact ⟨_, mapM_walk_eq_ok hused.fits, flatMap_hops used.segments used.ranges⟩
  · rw [hlength, PathHeader.announcedLength, PathHeader.segmentCount_counts hused.countable,
      Leg.counts_alongAll hused.fits, hopCount_lengths, Int.toNat_natCast,
      Leg.length_alongAll hused.fits, hused.fits.length_eq, Nat.mul_comm,
      Nat.mul_comm _ WireHop.size]
    rfl

def leafTopology : Topology :=
  { isdAs := .plain 1 112, borderRouters := .ofList [(4, "br4")] }

/-- A candidate whose segments up and down cross below their common origin. -/
def Candidate.viaShortcut : Candidate Unit where
  source := .plain 1 112
  destination := .plain 1 113
  segments := [.plain .up (.plain 1 110 0 1) [.plain 1 111 2 3, .plain 1 112 4 0],
    .plain .down (.plain 1 110 0 5) [.plain 1 111 6 7, .plain 1 113 8 0]]

theorem Candidate.exists_build_viaShortcut :
    ∃ path, (viaShortcut.build leafTopology 0).result = .ok (some path) := ⟨_, rfl⟩

theorem Candidate.build_carries_viaShortcut :
    ∃ path, (viaShortcut.build leafTopology 0).result = .ok (some path) ∧
      ∃ ranges used header,
        PathSegment.orient leafTopology.isdAs viaShortcut.segments = some ranges ∧
        (truncate viaShortcut.segments ranges viaShortcut.source viaShortcut.destination).result
          = .ok used ∧
        used.segments.length = used.ranges.length ∧
        Carries path.raw header used.segments used.ranges := by
  obtain ⟨path, hpath⟩ := exists_build_viaShortcut
  exact ⟨path, hpath, build_carries (List.cons_ne_nil _ _) hpath⟩

end PathAssembly
