import PathAssembly.Proofs.Header.RoundTrip

/-!
# Headers that are read

Whatever is encoded fits its fields, since encoding checks every number that it writes; and octets
are read exactly if their lengths have no gap and announce no more octets than there are. Encoding
compares the lengths with the numbers of fields, but not with each other. A header with a used slot
behind an unused one is therefore encoded to octets that are not read (`decode_of_encode`).
-/

namespace PathAssembly

namespace Octets

theorem range_of_pack {width : Nat} {value : Int} {octets : List UInt8}
    (h : pack width value = .ok octets) : 0 ≤ value ∧ value < Nat.pow 256 width := by
  by_contra hrange
  rw [pack, if_neg hrange] at h
  cases h

end Octets

theorem InfoField.encodable_of_encode {f : InfoField} {octets : List UInt8}
    (h : f.encode = .ok octets) : f.Encodable := by
  rw [encode] at h
  obtain ⟨_, hseg, h⟩ := Outcome.bind_eq_ok_iff.1 h
  obtain ⟨_, htime, _⟩ := Outcome.bind_eq_ok_iff.1 h
  obtain ⟨_, hsegId⟩ := BitField.fits_of_write hseg
  have htimestamp := Octets.range_of_pack htime
  exact ⟨hsegId.1, hsegId.2, htimestamp.1, htimestamp.2⟩

theorem WireHop.encodable_of_encode {h : WireHop} {octets : List UInt8}
    (hencode : h.encode = .ok octets) : h.Encodable := by
  rw [encode] at hencode
  obtain ⟨_, hmac, hencode⟩ := Outcome.bind_eq_ok_iff.1 hencode
  obtain ⟨_, hexpiry, hencode⟩ := Outcome.bind_eq_ok_iff.1 hencode
  obtain ⟨_, hingress, hencode⟩ := Outcome.bind_eq_ok_iff.1 hencode
  obtain ⟨_, hegress, _⟩ := Outcome.bind_eq_ok_iff.1 hencode
  have hlength : h.mac.length = macLength := by
    by_contra hlength
    rw [Mac.ofOctets, dif_neg hlength] at hmac
    cases hmac
  exact
    { ingress_nonneg := (Octets.range_of_pack hingress).1
      ingress_lt := (Octets.range_of_pack hingress).2
      egress_nonneg := (Octets.range_of_pack hegress).1
      egress_lt := (Octets.range_of_pack hegress).2
      expiry_nonneg := (Octets.range_of_pack hexpiry).1
      expiry_lt := (Octets.range_of_pack hexpiry).2
      length_mac := hlength }

namespace PathHeader

variable {p : PathHeader} {raw : List UInt8} {lengths : List Int}

theorem lengthFits_of_writeLengths {slot : Nat} {word next : Int}
    (h : writeLengths slot word lengths = .ok next) : ∀ length ∈ lengths, LengthFits length := by
  induction lengths generalizing slot word with
  | nil => exact fun _ hlength => absurd hlength List.not_mem_nil
  | cons length rest ih =>
      rw [writeLengths] at h
      split at h
      next => cases h
      next hle =>
        obtain ⟨word, hwrite, h⟩ := Outcome.bind_eq_ok_iff.1 h
        exact List.forall_mem_cons.2
          ⟨⟨(BitField.fits_of_write hwrite).2.1, Int.not_lt.1 hle⟩, ih h⟩

theorem fits_of_encodeMeta {currInf currHf : Int}
    (h : encodeMeta lengths currInf currHf = .ok raw) :
    lengths.length ≤ maxSegments ∧ (∀ length ∈ lengths, LengthFits length) ∧
      (0 ≤ currInf ∧ currInf < currInfField.capacity) ∧
      0 ≤ currHf ∧ currHf < currHfField.capacity := by
  simp only [encodeMeta] at h
  split at h
  next => cases h
  next hslots =>
    obtain ⟨_, hinf, h⟩ := Outcome.bind_eq_ok_iff.1 h
    obtain ⟨_, hhf, h⟩ := Outcome.bind_eq_ok_iff.1 h
    obtain ⟨_, hlengths, _⟩ := Outcome.bind_eq_ok_iff.1 h
    exact ⟨Nat.not_lt.1 hslots, lengthFits_of_writeLengths hlengths,
      (BitField.fits_of_write hinf).2, (BitField.fits_of_write hhf).2⟩

theorem encodable_of_encode (h : p.encode = .ok raw) : p.Encodable := by
  simp only [encode] at h
  split at h
  next => cases h
  next hinfoCount =>
    split at h
    next => cases h
    next hhopCount =>
      obtain ⟨start, hstart, h⟩ := Outcome.bind_eq_ok_iff.1 h
      obtain ⟨infos, hinfos, h⟩ := Outcome.bind_eq_ok_iff.1 h
      obtain ⟨hops, hhops, _⟩ := Outcome.bind_eq_ok_iff.1 h
      obtain ⟨hslots, hlengths, hinf, hhf⟩ := fits_of_encodeMeta hstart
      exact
        { length_lengths := hslots
          lengths_fit := hlengths
          length_infos := not_not.1 hinfoCount
          length_hops := not_not.1 hhopCount
          infos_fit := by
            intro info hinfo
            obtain ⟨_, hinfo⟩ := Outcome.exists_eq_ok_of_mem hinfos info hinfo
            exact InfoField.encodable_of_encode hinfo
          hops_fit := by
            intro hop hhop
            obtain ⟨_, hhop⟩ := Outcome.exists_eq_ok_of_mem hhops hop hhop
            exact WireHop.encodable_of_encode hhop
          currInf_nonneg := hinf.1
          currInf_lt := hinf.2
          currHf_nonneg := hhf.1
          currHf_lt := hhf.2 }

/-- The header of known lengths at the start of octets. -/
def ofOctets (raw : List UInt8) (lengths : List Int) : PathHeader where
  lengths
  infos := Octets.readRow InfoField.decode InfoField.size (segmentCount lengths)
    (raw.drop metaSize)
  hops := Octets.readRow WireHop.decode WireHop.size (hopCount lengths).toNat
    ((raw.drop metaSize).drop (segmentCount lengths * InfoField.size))
  currInf := currInfField.get (metaWord raw)
  currHf := currHfField.get (metaWord raw)

theorem decode_eq_error_of_gap (h : segmentLengths raw = .ok lengths)
    (hgap : hasGap lengths = true) : decode raw = .error (.segmentGap lengths) := by
  simp only [decode]
  rw [h]
  change (if hasGap lengths = true then _ else _) = _
  rw [if_pos hgap]
  rfl

theorem decode_eq_error_of_truncated (h : segmentLengths raw = .ok lengths)
    (hgap : hasGap lengths = false) (hlength : raw.length < announcedLength lengths) :
    decode raw = .error (.headerTruncated raw.length (announcedLength lengths)) := by
  have hgap' : ¬ hasGap lengths = true := by rw [hgap]; decide
  simp only [decode]
  rw [h]
  change (if hasGap lengths = true then _ else if raw.length < announcedLength lengths then _
    else _) = _
  rw [if_neg hgap', if_pos hlength]
  rfl

/-- Octets are read exactly if their lengths have no gap and announce no more octets than there
are. -/
theorem decode_eq_ok_iff : decode raw = .ok p ↔
    segmentLengths raw = .ok p.lengths ∧ hasGap p.lengths = false ∧
      announcedLength p.lengths ≤ raw.length ∧ ofOctets raw p.lengths = p := by
  constructor
  · intro h
    obtain ⟨lengths, hlengths, _⟩ := Outcome.bind_eq_ok_iff.1 h
    cases hgap : hasGap lengths with
    | true =>
        rw [decode_eq_error_of_gap hlengths hgap] at h
        cases h
    | false =>
        rcases Nat.lt_or_ge raw.length (announcedLength lengths) with hlength | hlength
        · rw [decode_eq_error_of_truncated hlengths hgap hlength] at h
          cases h
        · have hread : decode raw = .ok (ofOctets raw lengths) :=
            decode_eq_ok hlengths hgap hlength
          rw [hread] at h
          cases h
          exact ⟨hlengths, hgap, hlength, rfl⟩
  · rintro ⟨hlengths, hgap, hlength, hp⟩
    rw [← hp]
    exact decode_eq_ok hlengths hgap hlength

/-- Whatever is the reason not to read octets, they are refused as unacceptable. -/
theorem kind_of_decode_eq_error {fault : Fault} (h : decode raw = .error fault) :
    fault.kind = .invalid := by
  cases hlengths : segmentLengths raw with
  | error refusal =>
      have hrefused : decode raw = .error refusal := by
        rw [decode, hlengths]
        rfl
      rw [hrefused] at h
      rw [segmentLengths] at hlengths
      split at hlengths
      next =>
        cases h
        cases hlengths
        rfl
      next => cases hlengths
  | ok lengths =>
      cases hgap : hasGap lengths with
      | true =>
          rw [decode_eq_error_of_gap hlengths hgap] at h
          cases h
          rfl
      | false =>
          rcases Nat.lt_or_ge raw.length (announcedLength lengths) with hlength | hlength
          · rw [decode_eq_error_of_truncated hlengths hgap hlength] at h
            cases h
            rfl
          · rw [decode_eq_ok hlengths hgap hlength] at h
            cases h

theorem hasGap_eq_false_iff : hasGap lengths = false ↔
    lengths.Pairwise fun length behind => length = 0 → behind = 0 := by
  refine ⟨fun h => ?_, hasGap_eq_false⟩
  induction lengths with
  | nil => exact .nil
  | cons length rest ih =>
      rw [hasGap, Bool.or_eq_false_iff, Bool.and_eq_false_iff, List.any_eq_false] at h
      refine .cons ?_ (ih h.2)
      rintro behind hbehind rfl
      by_contra hused
      rcases h.1 with hzero | hrest
      · cases hzero
      · exact hrest behind hbehind (bne_iff_ne.2 hused)

/-- Filling up lengths makes no gap. -/
theorem hasGap_padLengths (lengths : List Int) : hasGap (padLengths lengths) = hasGap lengths := by
  rw [Bool.eq_iff_iff, ← not_iff_not, Bool.not_eq_true, Bool.not_eq_true, hasGap_eq_false_iff,
    hasGap_eq_false_iff, padLengths, List.pairwise_append]
  constructor
  · rintro ⟨hlengths, -⟩
    exact hlengths
  · intro hlengths
    refine ⟨hlengths, List.pairwise_replicate.2 (.inr fun _ => rfl), ?_⟩
    intro length _ behind hbehind _
    exact List.eq_of_mem_replicate hbehind

theorem decode_of_encode_of_gap (h : p.encode = .ok raw) (hgap : hasGap p.lengths = true) :
    decode raw = .error (.segmentGap (padLengths p.lengths)) := by
  have hfits := encodable_of_encode h
  obtain ⟨infos, hops, _, _, hraw⟩ := exists_encode hfits
  rw [h] at hraw
  cases hraw
  exact decode_eq_error_of_gap (segmentLengths_append hfits _)
    ((hasGap_padLengths p.lengths).trans hgap)

theorem decode_of_encode_of_no_gap (h : p.encode = .ok raw) (hgap : hasGap p.lengths = false) :
    decode raw = .ok p.padded := by
  obtain ⟨octets, hoctets, _, hdecode⟩ :=
    decode_encode (encodable_of_encode h) ((hasGap_padLengths p.lengths).trans hgap)
  rw [h] at hoctets
  cases hoctets
  rw [← hdecode [], List.append_nil]

/-- The octets of a header are read exactly if no used slot stands behind an unused one. What is
read is the header with its lengths filled up, and what is not read is refused for the gap. -/
theorem decode_of_encode (h : p.encode = .ok raw) :
    ((∃ q, decode raw = .ok q) ↔
      p.lengths.Pairwise fun length behind => length = 0 → behind = 0) ∧
    (∀ q, decode raw = .ok q → q = p.padded) ∧
    ∀ fault, decode raw = .error fault → fault = .segmentGap (padLengths p.lengths) := by
  rw [← hasGap_eq_false_iff]
  cases hgap : hasGap p.lengths with
  | false =>
      rw [decode_of_encode_of_no_gap h hgap]
      refine ⟨iff_of_true ⟨_, rfl⟩ rfl, ?_, ?_⟩
      · rintro _ ⟨⟩
        rfl
      · rintro _ ⟨⟩
  | true =>
      rw [decode_of_encode_of_gap h hgap]
      refine ⟨iff_of_false ?_ Bool.noConfusion, ?_, ?_⟩
      · rintro ⟨_, ⟨⟩⟩
      · rintro _ ⟨⟩
      · rintro _ ⟨⟩
        rfl

def twoHops : PathHeader where
  lengths := [1, 1]
  infos := [{ constructionDirection := false, segId := 1, timestamp := 2 },
    { constructionDirection := true, segId := 3, timestamp := 4, peer := true }]
  hops := [{ ingress := 5, egress := 6, mac := [0xa0, 0xa1, 0xa2, 0xa3, 0xa4, 0xa5], expiry := 63 },
    { ingress := 0x700, egress := 8, mac := [0, 0, 0, 0, 0, 0xff], expiry := 9
      ingressAlert := true }]
  currHf := 1

def twoHopsOctets : List UInt8 :=
  [1, 0, 0x10, 0x40, 0, 0, 0, 1, 0, 0, 0, 2, 3, 0, 0, 3, 0, 0, 0, 4,
    0, 63, 0, 5, 0, 6, 0xa0, 0xa1, 0xa2, 0xa3, 0xa4, 0xa5, 2, 9, 7, 0, 0, 8, 0, 0, 0, 0, 0, 0xff]

theorem decode_of_encode_twoHops :
    twoHops.encode = .ok twoHopsOctets ∧ (∃ q, decode twoHopsOctets = .ok q) ∧
      ∀ q, decode twoHopsOctets = .ok q → q.lengths = [1, 1, 0] := by
  have hencode : twoHops.encode = .ok twoHopsOctets := by decide
  obtain ⟨hread, hvalue, _⟩ := decode_of_encode hencode
  refine ⟨hencode, hread.2 (by decide), ?_⟩
  intro q hq
  rw [hvalue q hq]
  rfl

/-- A header whose only used slot stands behind an unused one. -/
def secondSlot : PathHeader where
  lengths := [0, 1, 0]
  infos := [{ constructionDirection := false, segId := 0, timestamp := 0 }]
  hops := [{ ingress := 0, egress := 0, mac := [0xa0, 0xa1, 0xa2, 0xa3, 0xa4, 0xa5], expiry := 63 }]

def secondSlotOctets : List UInt8 :=
  [0, 0, 0, 0x40, 0, 0, 0, 0, 0, 0, 0, 0, 0, 63, 0, 0, 0, 0, 0xa0, 0xa1, 0xa2, 0xa3, 0xa4, 0xa5]

theorem secondSlot_unreadable :
    secondSlot.encode = .ok secondSlotOctets ∧ ∀ q, decode secondSlotOctets ≠ .ok q := by
  have hrefused : decode secondSlotOctets = .error (.segmentGap [0, 1, 0]) := by decide
  refine ⟨by decide, ?_⟩
  intro q hq
  rw [hrefused] at hq
  cases hq

end PathHeader

end PathAssembly
