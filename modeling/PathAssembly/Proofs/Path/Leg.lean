import PathAssembly.Header.Crossing
import PathAssembly.Path.Leg
import PathAssembly.Proofs.Header.RoundTrip
import PathAssembly.Proofs.Segment.Window

/-!
# Headers of legs

The leg of a range that fits holds the visited entries. A header of up to three legs, none of them
empty and none longer than a slot can count, is encoded without a gap, and the hop fields of a slot
are those of its leg.
-/

namespace PathAssembly

namespace Leg

variable {μ : Type}

def along (s : PathSegment μ) (r : SegmentRange) : Leg :=
  { info := s.info
    reversed := r.reversed
    skipped := s.entries.take r.low
    entries := (r.visited s).map Prod.snd }

theorem ofRange_eq_ok {s : PathSegment μ} {r : SegmentRange} (h : r.Fits s) :
    ofRange s r = .ok (along s r) := by
  rw [ofRange, SegmentRange.entries_eq_ok h, Outcome.ok_bind, h.origin_eq, Int.toNat_natCast]
  rfl

theorem length_along {s : PathSegment μ} {r : SegmentRange} (h : r.Fits s) :
    (along s r).entries.length = r.length := by
  rw [along, List.length_map, h.length_visited]

def alongAll (segments : List (PathSegment μ)) (ranges : List SegmentRange) : List Leg :=
  (segments.zip ranges).map fun (s, r) => along s r

theorem mapM_ofRange_eq_ok {segments : List (PathSegment μ)} {ranges : List SegmentRange}
    (h : List.Forall₂ SegmentRange.Fits segments ranges) :
    ((segments.zip ranges).mapM fun (s, r) => ofRange s r) = .ok (alongAll segments ranges) := by
  apply Outcome.mapM_eq_ok_map
  rintro ⟨s, r⟩ hmem
  exact ofRange_eq_ok (List.forall₂_zip h hmem)

theorem length_alongAll {segments : List (PathSegment μ)} {ranges : List SegmentRange}
    (h : List.Forall₂ SegmentRange.Fits segments ranges) :
    (alongAll segments ranges).length = segments.length := by
  rw [alongAll, List.length_map, List.length_zip, h.length_eq, Nat.min_self]

def counts (legs : List Leg) : List Int := legs.map fun leg => (leg.entries.length : Int)

theorem counts_alongAll {segments : List (PathSegment μ)} {ranges : List SegmentRange}
    (h : List.Forall₂ SegmentRange.Fits segments ranges) :
    counts (alongAll segments ranges) = ranges.map fun r => (r.length : Int) := by
  induction h with
  | nil => rfl
  | cons hfits _ ih =>
      rw [alongAll, List.zip_cons_cons, List.map_cons, counts, List.map_cons, length_along hfits,
        List.map_cons]
      exact congrArg _ ih

/-- A leg that a segment slot can count. -/
def Countable (leg : Leg) : Prop :=
  1 ≤ leg.entries.length ∧ leg.entries.length ≤ PathHeader.maxHops

theorem countable_along {s : PathSegment μ} {r : SegmentRange} (h : r.Fits s)
    (hlength : r.length ≤ PathHeader.maxHops) : (along s r).Countable := by
  rw [Countable, length_along h]
  exact ⟨h.length_pos, hlength⟩

theorem countable_alongAll {segments : List (PathSegment μ)} {ranges : List SegmentRange}
    (h : List.Forall₂ SegmentRange.Fits segments ranges)
    (hlengths : ∀ r ∈ ranges, r.length ≤ PathHeader.maxHops) :
    ∀ leg ∈ alongAll segments ranges, leg.Countable := by
  intro leg hleg
  obtain ⟨⟨s, r⟩, hmem, rfl⟩ := List.mem_map.1 hleg
  exact countable_along (List.forall₂_zip h hmem) (hlengths r (List.of_mem_zip hmem).2)

theorem infoField_encodable (leg : Leg) : leg.infoField.Encodable where
  segId_nonneg := Int.natCast_nonneg _
  segId_lt := Int.ofNat_lt.2 leg.segId.toNat_lt
  timestamp_nonneg := Int.natCast_nonneg _
  timestamp_lt := Int.ofNat_lt.2 leg.info.timestamp.toNat_lt

end Leg

theorem WireHop.ofHopField_encodable (h : HopField) : (WireHop.ofHopField h).Encodable where
  ingress_nonneg := Int.natCast_nonneg _
  ingress_lt := Int.ofNat_lt.2 h.ingress.toNat_lt
  egress_nonneg := Int.natCast_nonneg _
  egress_lt := Int.ofNat_lt.2 h.egress.toNat_lt
  expiry_nonneg := Int.natCast_nonneg _
  expiry_lt := Int.ofNat_lt.2 h.expiry.toNat_lt
  length_mac := h.mac.length_eq

namespace PathHeader

theorem hopCount_counts (legs : List Leg) :
    hopCount (Leg.counts legs) = ((legs.flatMap Leg.hops).length : Int) := by
  induction legs with
  | nil => rfl
  | cons leg legs ih =>
      change (leg.entries.length : Int) + hopCount (Leg.counts legs) = _
      rw [ih, List.flatMap_cons, List.length_append, Leg.hops, List.length_map, Int.natCast_add]

theorem segmentCount_counts {legs : List Leg} (h : ∀ leg ∈ legs, Leg.Countable leg) :
    segmentCount (Leg.counts legs) = legs.length := by
  have hall : (Leg.counts legs).countP (0 < ·) = (Leg.counts legs).length := by
    rw [List.countP_eq_length]
    intro length hlength
    obtain ⟨leg, hleg, rfl⟩ := List.mem_map.1 hlength
    exact decide_eq_true (Int.ofNat_lt.2 (h leg hleg).1)
  rw [segmentCount, hall, Leg.counts, List.length_map]

/-- A header of legs can be encoded. -/
theorem encodable_ofLegs {legs : List Leg} (h : ∀ leg ∈ legs, Leg.Countable leg)
    (hslots : legs.length ≤ maxSegments) : (ofLegs (Leg.counts legs) legs).Encodable where
  length_lengths := by
    rw [ofLegs, Leg.counts, List.length_map]
    exact hslots
  lengths_fit := by
    intro length hlength
    obtain ⟨leg, hleg, rfl⟩ := List.mem_map.1 hlength
    exact ⟨Int.natCast_nonneg _, Int.ofNat_le.2 (h leg hleg).2⟩
  length_infos := by
    rw [ofLegs, List.length_map, segmentCount_counts h]
  length_hops := (hopCount_counts legs).symm
  infos_fit := by
    intro info hinfo
    obtain ⟨leg, _, rfl⟩ := List.mem_map.1 hinfo
    exact leg.infoField_encodable
  hops_fit := by
    intro hop hhop
    obtain ⟨leg, _, hhop⟩ := List.mem_flatMap.1 hhop
    obtain ⟨entry, _, rfl⟩ := List.mem_map.1 hhop
    exact WireHop.ofHopField_encodable entry.hop
  currInf_nonneg := Int.le_refl 0
  currInf_lt := (by decide : (0 : Int) < currInfField.capacity)
  currHf_nonneg := Int.le_refl 0
  currHf_lt := (by decide : (0 : Int) < currHfField.capacity)

theorem hasGap_replicate_zero (count : Nat) : hasGap (List.replicate count 0) = false := by
  induction count with
  | zero => rfl
  | succ count ih => simp [List.replicate_succ, hasGap, ih]

/-- Lengths that are filled up have no gap if none of them is zero. -/
theorem hasGap_append_replicate {lengths : List Int} (h : ∀ length ∈ lengths, length ≠ 0)
    (count : Nat) : hasGap (lengths ++ List.replicate count 0) = false := by
  induction lengths with
  | nil => exact hasGap_replicate_zero count
  | cons length rest ih =>
      have hfirst : (length == 0) = false := beq_eq_false_iff_ne.2 (h length List.mem_cons_self)
      have hrest := ih fun other hother => h other (List.mem_cons_of_mem length hother)
      rw [List.cons_append, hasGap, hfirst, hrest]
      rfl

theorem hasGap_counts {legs : List Leg} (h : ∀ leg ∈ legs, Leg.Countable leg) :
    hasGap (padLengths (Leg.counts legs)) = false := by
  apply hasGap_append_replicate
  intro length hlength
  obtain ⟨leg, hleg, rfl⟩ := List.mem_map.1 hlength
  exact Int.ofNat_ne_zero.2 (Nat.one_le_iff_ne_zero.1 (h leg hleg).1)

/-- The hop fields of a leg stand behind those of the legs before it. -/
theorem take_drop_hops {legs : List Leg} {slot : Nat} {leg : Leg} (h : legs[slot]? = some leg) :
    ((legs.flatMap Leg.hops).drop (hopCount ((Leg.counts legs).take slot)).toNat).take
      leg.entries.length = leg.hops := by
  have hlength : leg.hops.length = leg.entries.length := List.length_map _
  obtain ⟨hslot, hleg⟩ := List.getElem?_eq_some_iff.1 h
  have hsplit : legs = legs.take slot ++ leg :: legs.drop (slot + 1) := by
    rw [← hleg, ← List.drop_eq_getElem_cons hslot, List.take_append_drop]
  have hbefore : (Leg.counts legs).take slot = Leg.counts (legs.take slot) := List.map_take.symm
  rw [hbefore, hopCount_counts, Int.toNat_natCast]
  conv_lhs => rw [hsplit]
  rw [List.flatMap_append, List.flatMap_cons]
  have htake : (List.take slot (List.take slot legs ++ leg :: List.drop (slot + 1) legs))
      = legs.take slot := by rw [← hsplit]
  rw [htake, List.drop_left, ← hlength, List.take_left]

theorem segmentHops_ofLegs {legs : List Leg} {slot : Nat} {leg : Leg}
    (h : legs[slot]? = some leg) :
    (ofLegs (Leg.counts legs) legs).padded.segmentHops slot = .ok leg.hops := by
  have hslot : slot < (Leg.counts legs).length := by
    rw [Leg.counts, List.length_map]
    exact (List.getElem?_eq_some_iff.1 h).1
  have hlength : (padLengths (Leg.counts legs))[slot]? = some (leg.entries.length : Int) := by
    rw [padLengths, List.getElem?_append_left hslot, Leg.counts, List.getElem?_map, h]
    rfl
  have htake : (padLengths (Leg.counts legs)).take slot = (Leg.counts legs).take slot :=
    List.take_append_of_le_length (Nat.le_of_lt hslot)
  have hlengths : (ofLegs (Leg.counts legs) legs).padded.lengths = padLengths (Leg.counts legs) :=
    rfl
  rw [segmentHops, hlengths, hlength, htake]
  exact congrArg Except.ok (take_drop_hops h)

/-- The links that a header of legs crosses are those of its legs, one after the other. -/
theorem crossings_ofLegs (legs : List Leg) :
    (ofLegs (Leg.counts legs) legs).padded.crossings
      = .ok (legs.flatMap fun leg => hopCrossings (!leg.reversed) leg.hops) := by
  refine Outcome.bind_eq_ok_iff.2
    ⟨legs.map fun leg => hopCrossings (!leg.reversed) leg.hops, Outcome.mapM_eq_ok_iff.2 ?_, ?_⟩
  · change List.Forall₂ _ (legs.map Leg.infoField).zipIdx _
    apply List.forall₂_of_length_eq_of_get
    · rw [List.length_zipIdx, List.length_map, List.length_map]
    · intro slot hinfo hleg
      have hslot : slot < legs.length := by rwa [List.length_map] at hleg
      simp only [List.get_eq_getElem, List.getElem_zipIdx, List.getElem_map, Nat.zero_add]
      rw [segmentHops_ofLegs (List.getElem?_eq_getElem hslot)]
      rfl
  · rw [List.flatMap_def]
    rfl

end PathHeader

end PathAssembly
