import Mathlib.Data.List.SplitLengths
import PathAssembly.Proofs.Header.Reserved

/-!
# Which octets start with a header

The first four octets say how many octets a header has, and nothing behind these is looked at
(`decode_take`). Octets that do not start with a header are refused for the first of three reasons
(`Refused`); once none of these applies, all fields lie within the octets, so that no field is ever
found to be missing.
-/

namespace PathAssembly

namespace Octets

theorem readRow_take {α : Type} {decode : List UInt8 → α} {size : Nat}
    (hdecode : ∀ octets : List UInt8, decode (octets.take size) = decode octets)
    {count n : Nat} {octets : List UInt8} (h : count * size ≤ n) :
    readRow decode size count (octets.take n) = readRow decode size count octets := by
  induction count generalizing n octets with
  | zero => rfl
  | succ count ih =>
      rw [Nat.add_mul, Nat.one_mul] at h
      have hfirst : (octets.take n).take size = octets.take size := by
        rw [List.take_take, Nat.min_eq_left (by omega)]
      rw [readRow_succ, readRow_succ, ← hdecode (octets.take n), hfirst, hdecode, List.drop_take,
        ih (by omega)]

end Octets

theorem InfoField.decode_take (octets : List UInt8) :
    decode (octets.take size) = decode octets := by
  simp only [decode, size, List.take_take, List.drop_take]
  rfl

theorem WireHop.decode_take (octets : List UInt8) :
    decode (octets.take size) = decode octets := by
  simp only [decode, size, List.take_take, List.drop_take]
  rfl

namespace PathHeader

variable {raw other : List UInt8} {lengths : List Int} {p : PathHeader} {fault : Fault} {n : Nat}

theorem metaWord_take (h : metaSize ≤ n) : metaWord (raw.take n) = metaWord raw := by
  rw [metaWord, List.take_take, Nat.min_eq_left h, metaWord]

theorem segmentLengths_take (h : metaSize ≤ n) :
    segmentLengths (raw.take n) = segmentLengths raw := by
  rw [segmentLengths, segmentLengths, metaWord_take h]
  rcases Nat.lt_or_ge raw.length metaSize with hshort | hlong
  · rw [List.take_of_length_le (by omega)]
  · rw [if_neg (by rw [List.length_take]; omega), if_neg (by omega)]

theorem metaSize_le_announcedLength (lengths : List Int) :
    metaSize ≤ announcedLength lengths := by
  rw [announcedLength]
  omega

theorem ofOctets_take (h : announcedLength lengths ≤ n) :
    ofOctets (raw.take n) lengths = ofOctets raw lengths := by
  have hmeta : metaWord (raw.take n) = metaWord raw :=
    metaWord_take ((metaSize_le_announcedLength lengths).trans h)
  rw [announcedLength] at h
  rw [ofOctets, ofOctets, hmeta, List.drop_take, List.drop_take,
    Octets.readRow_take InfoField.decode_take (by omega),
    Octets.readRow_take WireHop.decode_take (by omega)]

/-- A header is read from the octets that its lengths announce. -/
theorem decode_take (h : announcedLength p.lengths ≤ n) :
    decode (raw.take n) = .ok p ↔ decode raw = .ok p := by
  rw [decode_eq_ok_iff, decode_eq_ok_iff, ofOctets_take h,
    segmentLengths_take ((metaSize_le_announcedLength p.lengths).trans h), List.length_take,
    Nat.le_min, and_iff_right h]

/-- The lengths of the three segment slots: the last 18 bits of the first four octets. -/
def slotLengths (raw : List UInt8) : List Int :=
  [Octets.toNat (raw.take 4) / 0x1000 % 0x40, Octets.toNat (raw.take 4) / 0x40 % 0x40,
    Octets.toNat (raw.take 4) % 0x40]

/-- The number of octets that a header takes by what it starts with. -/
def extent (raw : List UInt8) : Nat :=
  4 + 8 * (slotLengths raw).countP (· ≠ 0) + 12 * (slotLengths raw).sum.toNat

/-- Why octets are refused: the first reason that applies. -/
inductive Refused (raw : List UInt8) : Fault → Prop
  | short (h : raw.length < 4) : Refused raw (.headerTooShort raw.length)
  | gap (h : 4 ≤ raw.length)
      (hgap : ¬ (slotLengths raw).Pairwise fun length behind => length = 0 → behind = 0) :
      Refused raw (.segmentGap (slotLengths raw))
  | truncated (h : 4 ≤ raw.length)
      (hgap : (slotLengths raw).Pairwise fun length behind => length = 0 → behind = 0)
      (hlength : raw.length < extent raw) :
      Refused raw (.headerTruncated raw.length (extent raw))

theorem segmentLengths_eq_ok (h : 4 ≤ raw.length) :
    segmentLengths raw = .ok (slotLengths raw) := by
  have hread : (List.range maxSegments).map (fun slot => (lengthField slot).get (metaWord raw))
      = [metaWord raw / 0x1000 % 0x40, metaWord raw / 0x40 % 0x40, metaWord raw / 1 % 0x40] := by
    simp only [BitField.get_eq_ediv_emod]
    rfl
  have hlong : ¬ raw.length < metaSize := Nat.not_lt.2 h
  rw [segmentLengths, if_neg hlong, hread, Int.ediv_one]
  rfl

theorem segmentLengths_eq_ok_iff :
    segmentLengths raw = .ok lengths ↔ 4 ≤ raw.length ∧ lengths = slotLengths raw := by
  rcases Nat.lt_or_ge raw.length 4 with hshort | hlong
  · have hnone : segmentLengths raw = .error (.headerTooShort raw.length) := if_pos hshort
    rw [hnone]
    exact iff_of_false (fun h => by cases h) fun h => Nat.not_le.2 hshort h.1
  · rw [segmentLengths_eq_ok hlong, and_iff_right hlong]
    exact ⟨fun h => by cases h; rfl, fun h => by rw [h]⟩

theorem announcedLength_slotLengths (h : 4 ≤ raw.length) :
    announcedLength (slotLengths raw) = extent raw :=
  announcedLength_eq (lengthFits_of_segmentLengths (segmentLengths_eq_ok h))

/-- Octets are a header or refused for a known reason. -/
theorem decode_eq_ok_or_refused (raw : List UInt8) :
    (4 ≤ raw.length ∧
      ((slotLengths raw).Pairwise fun length behind => length = 0 → behind = 0) ∧
      extent raw ≤ raw.length ∧ decode raw = .ok (ofOctets raw (slotLengths raw))) ∨
    ∃ fault, Refused raw fault ∧ decode raw = .error fault := by
  rcases Nat.lt_or_ge raw.length 4 with hshort | hlong
  · refine .inr ⟨_, .short hshort, ?_⟩
    have hlengths : segmentLengths raw = .error (.headerTooShort raw.length) := if_pos hshort
    rw [decode, hlengths]
    rfl
  have hlengths := segmentLengths_eq_ok hlong
  cases hgap : hasGap (slotLengths raw) with
  | true =>
      refine .inr ⟨_, .gap hlong ?_, decode_eq_error_of_gap hlengths hgap⟩
      rw [← hasGap_eq_false_iff, hgap]
      exact Bool.noConfusion
  | false =>
      have hpairs := hasGap_eq_false_iff.1 hgap
      rcases Nat.lt_or_ge raw.length (extent raw) with htruncated | hlength
      · refine .inr ⟨_, .truncated hlong hpairs htruncated, ?_⟩
        rw [← announcedLength_slotLengths hlong] at htruncated ⊢
        exact decode_eq_error_of_truncated hlengths hgap htruncated
      · refine .inl ⟨hlong, hpairs, hlength, ?_⟩
        rw [← announcedLength_slotLengths hlong] at hlength
        exact decode_eq_ok hlengths hgap hlength

theorem Refused.kind_eq (h : Refused raw fault) : fault.kind = .invalid := by
  cases h <;> rfl

theorem Refused.not_header (h : Refused raw fault) : ¬ (4 ≤ raw.length ∧
    ((slotLengths raw).Pairwise fun length behind => length = 0 → behind = 0) ∧
    extent raw ≤ raw.length) := by
  rintro ⟨hlong, hpairs, hlength⟩
  cases h with
  | short hshort => omega
  | gap _ hgap => exact hgap hpairs
  | truncated _ _ htruncated => omega

theorem extent_eq_of_decode (h : decode raw = .ok p) :
    p.lengths = slotLengths raw ∧ announcedLength p.lengths = extent raw := by
  obtain ⟨hlong, hlengths⟩ := segmentLengths_eq_ok_iff.1 (decode_eq_ok_iff.1 h).1
  refine ⟨hlengths, ?_⟩
  rw [hlengths, announcedLength_slotLengths hlong]

theorem encodable_of_decode (h : decode raw = .ok p) : p.Encodable := by
  obtain ⟨hlengths, _, hlength, hfields⟩ := decode_eq_ok_iff.1 h
  have hfits := encodable_ofOctets hlengths hlength
  rwa [hfields] at hfits

/-- The hop fields of the slots, one slot behind the other, are all hop fields. -/
theorem exists_segmentHops {first second third : Int}
    (hlengths : p.lengths = [first, second, third]) (hfit : ∀ length ∈ p.lengths, 0 ≤ length)
    (hcount : (p.hops.length : Int) = hopCount p.lengths) :
    ∃ parts, [0, 1, 2].mapM p.segmentHops = .ok parts ∧
      parts.map (fun hops => (hops.length : Int)) = p.lengths ∧ parts.flatten = p.hops := by
  rw [hlengths] at hfit hcount
  simp only [List.forall_mem_cons] at hfit
  obtain ⟨hfirst, hsecond, hthird, _⟩ := hfit
  simp only [hopCount] at hcount
  have hone : (first + 0).toNat = first.toNat := by omega
  have htwo : (first + (second + 0)).toNat = first.toNat + second.toNat := by omega
  have hslotFirst : p.segmentHops 0 = .ok (p.hops.take first.toNat) := by
    rw [segmentHops, hlengths]
    rfl
  have hslotSecond : p.segmentHops 1 = .ok ((p.hops.drop first.toNat).take second.toNat) := by
    rw [segmentHops, hlengths, ← hone]
    rfl
  have hslotThird : p.segmentHops 2
      = .ok (((p.hops.drop first.toNat).drop second.toNat).take third.toNat) := by
    rw [segmentHops, hlengths, List.drop_drop, ← htwo]
    rfl
  have hparts : [0, 1, 2].mapM p.segmentHops
      = .ok ([first.toNat, second.toNat, third.toNat].splitLengths p.hops) := by
    rw [List.splitLengths_cons, List.splitLengths_cons, List.splitLengths_cons,
      List.splitLengths_nil]
    exact Outcome.mapM_eq_ok_iff.2 (.cons hslotFirst (.cons hslotSecond (.cons hslotThird .nil)))
  refine ⟨_, hparts, ?_, List.flatten_splitLengths _ _ ?_⟩
  · have hmap := List.map_splitLengths_length p.hops [first.toNat, second.toNat, third.toNat]
      (by simp only [List.sum_cons, List.sum_nil]; omega)
    have hcast := congrArg (List.map ((↑) : Nat → Int)) hmap
    rw [List.map_map] at hcast
    simp only [List.map_cons, List.map_nil, Int.toNat_of_nonneg hfirst,
      Int.toNat_of_nonneg hsecond, Int.toNat_of_nonneg hthird] at hcast
    rw [hlengths]
    exact hcast
  · simp only [List.sum_cons, List.sum_nil]
    omega

/-- Octets are a header exactly if they are four at least, no used slot stands behind an unused one
and they are as many as the lengths ask for; all others are refused as unacceptable. A header is
given by the octets that it takes, has as many fields as its lengths say, and its hop fields are
those of its slots, one behind the other. -/
theorem decode_settles (raw : List UInt8) :
    ((∃ p, decode raw = .ok p) ↔ 4 ≤ raw.length ∧
      ((slotLengths raw).Pairwise fun length behind => length = 0 → behind = 0) ∧
      extent raw ≤ raw.length) ∧
    (∀ fault, decode raw = .error fault → Refused raw fault ∧ fault.kind = .invalid) ∧
    ∀ p, decode raw = .ok p →
      p.lengths = slotLengths raw ∧
      (∀ other : List UInt8, other.take (extent raw) = raw.take (extent raw) →
        decode other = .ok p) ∧
      p.infos.length = (slotLengths raw).countP (· ≠ 0) ∧
      (p.hops.length : Int) = (slotLengths raw).sum ∧
      ∃ parts, [0, 1, 2].mapM p.segmentHops = .ok parts ∧
        parts.map (fun hops => (hops.length : Int)) = slotLengths raw ∧
        parts.flatten = p.hops := by
  refine ⟨?_, ?_, ?_⟩
  · rcases decode_eq_ok_or_refused raw with ⟨hlong, hpairs, hlength, hread⟩ | ⟨fault, href, herror⟩
    · exact iff_of_true ⟨_, hread⟩ ⟨hlong, hpairs, hlength⟩
    · refine iff_of_false ?_ href.not_header
      rintro ⟨p, hp⟩
      rw [herror] at hp
      cases hp
  · intro fault hfault
    rcases decode_eq_ok_or_refused raw with ⟨_, _, _, hread⟩ | ⟨_, href, herror⟩
    · rw [hread] at hfault
      cases hfault
    · rw [herror] at hfault
      cases hfault
      exact ⟨href, href.kind_eq⟩
  · intro p hp
    obtain ⟨hlengths, hextent⟩ := extent_eq_of_decode hp
    have hfits := encodable_of_decode hp
    have hnonneg : ∀ length ∈ p.lengths, 0 ≤ length :=
      fun length h => (hfits.lengths_fit length h).1
    refine ⟨hlengths, ?_, ?_, ?_, ?_⟩
    · intro other hother
      rw [← decode_take (Nat.le_of_eq hextent), hother, decode_take (Nat.le_of_eq hextent)]
      exact hp
    · rw [hfits.length_infos, segmentCount_eq_countP hnonneg, hlengths]
    · rw [hfits.length_hops, hopCount_eq_sum, hlengths]
    · rw [← hlengths]
      exact exists_segmentHops hlengths hnonneg hfits.length_hops

end PathHeader

end PathAssembly
