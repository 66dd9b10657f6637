import PathAssembly.Proofs.Header.MetaWord

/-!
# Round trip of path headers

A header whose numbers fit their fields is encoded, and its octets decode to the same header with
the segment lengths filled up to three, whatever stands behind them. Filling up lengths changes
nothing on the wire, so that encoding what was decoded gives the octets back. A header with a length
for every slot and no gap between them (`WellFormed`) is read back unchanged.
-/

namespace PathAssembly

namespace PathHeader

/-- The numbers of a header fit their fields, and there are as many fields as its lengths say. -/
structure Encodable (p : PathHeader) : Prop where
  length_lengths : p.lengths.length ≤ maxSegments
  lengths_fit : ∀ length ∈ p.lengths, LengthFits length
  length_infos : p.infos.length = segmentCount p.lengths
  length_hops : (p.hops.length : Int) = hopCount p.lengths
  infos_fit : ∀ info ∈ p.infos, info.Encodable
  hops_fit : ∀ hop ∈ p.hops, hop.Encodable
  currInf_nonneg : 0 ≤ p.currInf
  currInf_lt : p.currInf < currInfField.capacity
  currHf_nonneg : 0 ≤ p.currHf
  currHf_lt : p.currHf < currHfField.capacity

/-- Segment lengths filled up with zeros to all slots. -/
def padLengths (lengths : List Int) : List Int :=
  lengths ++ List.replicate (maxSegments - lengths.length) 0

def padded (p : PathHeader) : PathHeader := { p with lengths := padLengths p.lengths }

def indexWord (p : PathHeader) : Int := currHfField.set (currInfField.set 0 p.currInf) p.currHf

def writtenMeta (p : PathHeader) : Int := setLengths 0 p.indexWord p.lengths

theorem hopCount_append (first second : List Int) :
    hopCount (first ++ second) = hopCount first + hopCount second := by
  induction first with
  | nil => rw [List.nil_append, hopCount, Int.zero_add]
  | cons length rest ih => rw [List.cons_append, hopCount, hopCount, ih, Int.add_assoc]

theorem hopCount_replicate_zero (count : Nat) : hopCount (List.replicate count 0) = 0 := by
  induction count with
  | zero => rfl
  | succ count ih => rw [List.replicate_succ, hopCount, ih, Int.add_zero]

theorem hopCount_padLengths (lengths : List Int) :
    hopCount (padLengths lengths) = hopCount lengths := by
  rw [padLengths, hopCount_append, hopCount_replicate_zero, Int.add_zero]

theorem segmentCount_padLengths (lengths : List Int) :
    segmentCount (padLengths lengths) = segmentCount lengths := by
  have hzeros : (List.replicate (maxSegments - lengths.length) (0 : Int)).countP (0 < ·) = 0 := by
    rw [List.countP_replicate]
    rfl
  rw [segmentCount, padLengths, List.countP_append, hzeros, Nat.add_zero, segmentCount]

theorem length_padLengths {lengths : List Int} (h : lengths.length ≤ maxSegments) :
    (padLengths lengths).length = maxSegments := by
  rw [padLengths, List.length_append, List.length_replicate, Nat.add_sub_of_le h]

theorem announcedLength_padLengths (lengths : List Int) :
    announcedLength (padLengths lengths) = announcedLength lengths := by
  rw [announcedLength, segmentCount_padLengths, hopCount_padLengths, announcedLength]

theorem padded_eq_self {p : PathHeader} (h : p.lengths.length = maxSegments) : p.padded = p := by
  have hlengths : padLengths p.lengths = p.lengths := by
    rw [padLengths, h, Nat.sub_self, List.replicate_zero, List.append_nil]
  rw [padded, hlengths]

theorem Encodable.pad {p : PathHeader} (h : p.Encodable) : p.padded.Encodable where
  length_lengths := Nat.le_of_eq (length_padLengths h.length_lengths)
  lengths_fit := by
    intro length hl
    rcases List.mem_append.1 hl with hl | hl
    · exact h.lengths_fit length hl
    · rw [List.eq_of_mem_replicate hl]
      exact ⟨Int.le_refl 0, by decide⟩
  length_infos := h.length_infos.trans (segmentCount_padLengths p.lengths).symm
  length_hops := h.length_hops.trans (hopCount_padLengths p.lengths).symm
  infos_fit := h.infos_fit
  hops_fit := h.hops_fit
  currInf_nonneg := h.currInf_nonneg
  currInf_lt := h.currInf_lt
  currHf_nonneg := h.currHf_nonneg
  currHf_lt := h.currHf_lt

/-- The indices leave every field apart from them at zero. -/
theorem get_indexWord_of_apart {p : PathHeader} (h : p.Encodable) {g : BitField} (hg : g.Fits)
    (hinf : currInfField.Apart g) (hhf : currHfField.Apart g) : g.get p.indexWord = 0 := by
  rw [indexWord, BitField.get_set_of_apart fits_currHfField hg hhf _ h.currHf_nonneg h.currHf_lt,
    BitField.get_set_of_apart fits_currInfField hg hinf _ h.currInf_nonneg h.currInf_lt,
    BitField.get_eq_ediv_emod, Int.zero_ediv, Int.zero_emod]

theorem get_lengthField_indexWord {p : PathHeader} (h : p.Encodable) {slot : Nat}
    (hslot : slot < maxSegments) : (lengthField slot).get p.indexWord = 0 :=
  get_indexWord_of_apart h (fits_lengthField hslot) (apart_currInfField slot).symm
    (apart_currHfField slot).symm

theorem get_lengthField_writtenMeta {p : PathHeader} (h : p.Encodable) {slot : Nat}
    (hbehind : p.lengths.length ≤ slot) (hslot : slot < maxSegments) :
    (lengthField slot).get p.writtenMeta = 0 := by
  have hslots : 0 + p.lengths.length ≤ maxSegments := by
    rw [Nat.zero_add]
    exact h.length_lengths
  rw [writtenMeta, get_setLengths_of_apart (fits_lengthField hslot) h.lengths_fit hslots
    fun other _ hother => apart_lengthField (by omega)]
  exact get_lengthField_indexWord h hslot

theorem writtenMeta_padded {p : PathHeader} (h : p.Encodable) :
    p.padded.writtenMeta = p.writtenMeta := by
  have hslots := Nat.add_sub_of_le h.length_lengths
  change setLengths 0 p.indexWord (padLengths p.lengths) = p.writtenMeta
  rw [padLengths, setLengths_append, Nat.zero_add]
  apply setLengths_replicate_zero
  intro slot hbehind hslot
  exact get_lengthField_writtenMeta h hbehind (by omega)

theorem writtenMeta_mem_range {p : PathHeader} (h : p.Encodable) :
    0 ≤ p.writtenMeta ∧ p.writtenMeta < Nat.pow 256 metaSize := by
  have hinf := BitField.set_mem_range fits_currInfField 0 (by decide) (by decide)
    h.currInf_nonneg h.currInf_lt
  have hhf := BitField.set_mem_range fits_currHfField _ hinf.1 hinf.2 h.currHf_nonneg h.currHf_lt
  exact setLengths_mem_range hhf h.lengths_fit (by rw [Nat.zero_add]; exact h.length_lengths)

/-- The three lengths in the meta word are the lengths of the header and zeros. -/
theorem map_get_writtenMeta {p : PathHeader} (h : p.Encodable) :
    (List.range maxSegments).map (fun slot => (lengthField slot).get p.writtenMeta)
      = padLengths p.lengths := by
  have hread := get_setLengths 0 p.padded.indexWord h.pad.lengths_fit
    (by rw [Nat.zero_add]; exact h.pad.length_lengths)
  simp only [Nat.zero_add] at hread
  rw [show p.padded.lengths = padLengths p.lengths from rfl,
    length_padLengths h.length_lengths] at hread
  rw [← writtenMeta_padded h]
  exact hread

theorem get_currInfField_writtenMeta {p : PathHeader} (h : p.Encodable) :
    currInfField.get p.writtenMeta = p.currInf := by
  rw [writtenMeta, get_setLengths_of_apart fits_currInfField h.lengths_fit
      (by rw [Nat.zero_add]; exact h.length_lengths) fun other _ _ => apart_currInfField other,
    indexWord, BitField.get_set_of_apart fits_currHfField fits_currInfField (by decide) _
      h.currHf_nonneg h.currHf_lt,
    BitField.get_set _ _ h.currInf_nonneg h.currInf_lt]

theorem get_currHfField_writtenMeta {p : PathHeader} (h : p.Encodable) :
    currHfField.get p.writtenMeta = p.currHf := by
  rw [writtenMeta, get_setLengths_of_apart fits_currHfField h.lengths_fit
      (by rw [Nat.zero_add]; exact h.length_lengths) fun other _ _ => apart_currHfField other,
    indexWord, BitField.get_set _ _ h.currHf_nonneg h.currHf_lt]

theorem encodeMeta_eq_ok {p : PathHeader} (h : p.Encodable) :
    encodeMeta p.lengths p.currInf p.currHf
      = .ok (Octets.ofNat metaSize p.writtenMeta.toNat) := by
  have hslots : ¬ maxSegments < p.lengths.length := Nat.not_lt.2 h.length_lengths
  have hinf := BitField.write_eq_ok fits_currInfField 0 h.currInf_nonneg h.currInf_lt
  have hhf := BitField.write_eq_ok fits_currHfField (currInfField.set 0 p.currInf)
    h.currHf_nonneg h.currHf_lt
  have hlengths := writeLengths_eq_ok 0 p.indexWord h.lengths_fit
    (by rw [Nat.zero_add]; exact h.length_lengths)
  unfold indexWord at hlengths
  simp only [encodeMeta]
  rw [if_neg hslots, hinf]
  change (currHfField.write _ _ >>= fun word => writeLengths 0 word p.lengths >>= fun word =>
    pure (Octets.ofNat metaSize word.toNat)) = _
  rw [hhf]
  change (writeLengths 0 _ p.lengths >>= fun word =>
    pure (Octets.ofNat metaSize word.toNat)) = _
  rw [hlengths]
  rfl

/-- An encodable header is its meta word and the octets of its fields. -/
theorem encode_eq_bind {p : PathHeader} (h : p.Encodable) :
    p.encode = (do
      let infos ← p.infos.mapM InfoField.encode
      let hops ← p.hops.mapM WireHop.encode
      return Octets.ofNat metaSize p.writtenMeta.toNat ++ infos.flatten ++ hops.flatten) := by
  simp only [encode]
  rw [if_neg (not_not.2 h.length_infos), if_neg (not_not.2 h.length_hops), encodeMeta_eq_ok h]
  rfl

theorem encode_padded {p : PathHeader} (h : p.Encodable) : p.padded.encode = p.encode := by
  rw [encode_eq_bind h, encode_eq_bind h.pad, writtenMeta_padded h]
  rfl

/-- The octets of the fields of an encodable header, each of which reads back. -/
theorem exists_encode {p : PathHeader} (h : p.Encodable) :
    ∃ infos hops, List.Forall₂ (Octets.Reads InfoField.decode InfoField.size) p.infos infos ∧
      List.Forall₂ (Octets.Reads WireHop.decode WireHop.size) p.hops hops ∧
      p.encode = .ok (Octets.ofNat metaSize p.writtenMeta.toNat
        ++ (infos.flatten ++ hops.flatten)) := by
  obtain ⟨infos, hinfos, hreadInfos⟩ := Outcome.exists_mapM_eq_ok fun info hinfo =>
    InfoField.encode_reads (h.infos_fit info hinfo)
  obtain ⟨hops, hhops, hreadHops⟩ := Outcome.exists_mapM_eq_ok fun hop hhop =>
    WireHop.encode_reads (h.hops_fit hop hhop)
  refine ⟨infos, hops, hreadInfos, hreadHops, ?_⟩
  rw [encode_eq_bind h, hinfos, hhops, ← List.append_assoc]
  rfl

theorem length_hops_toNat {p : PathHeader} (h : p.Encodable) :
    (hopCount p.lengths).toNat = p.hops.length := by
  rw [← h.length_hops, Int.toNat_natCast]

/-- Octets whose lengths have no gap and that are as many as the lengths announce are a header,
whose fields stand in two rows. -/
theorem decode_eq_ok {raw : List UInt8} {lengths : List Int} (h : segmentLengths raw = .ok lengths)
    (hgap : hasGap lengths = false) (hlength : announcedLength lengths ≤ raw.length) :
    decode raw = .ok {
      lengths
      infos := Octets.readRow InfoField.decode InfoField.size (segmentCount lengths)
        (raw.drop metaSize)
      hops := Octets.readRow WireHop.decode WireHop.size (hopCount lengths).toNat
        ((raw.drop metaSize).drop (segmentCount lengths * InfoField.size))
      currInf := currInfField.get (metaWord raw)
      currHf := currHfField.get (metaWord raw) } := by
  have hgap' : ¬ hasGap lengths = true := by rw [hgap]; decide
  have hannounced := hlength
  rw [announcedLength] at hannounced
  have hinfos := Octets.readFields_eq_ok InfoField.decode (Nat.le_refl InfoField.size)
    (by omega : metaSize + segmentCount lengths * InfoField.size ≤ raw.length)
  have hhops := Octets.readFields_eq_ok WireHop.decode
    (by decide : WireHop.numbersSize ≤ WireHop.size) hannounced
  simp only [decode]
  rw [h]
  change (if hasGap lengths = true then _ else if raw.length < announcedLength lengths then _
    else _) = _
  rw [if_neg hgap', if_neg (Nat.not_lt.2 hlength), hinfos, Outcome.ok_bind, hhops,
    Outcome.ok_bind, List.drop_drop]
  rfl

theorem metaWord_append {p : PathHeader} (h : p.Encodable) (octets : List UInt8) :
    metaWord (Octets.ofNat metaSize p.writtenMeta.toNat ++ octets) = p.writtenMeta := by
  have hrange := writtenMeta_mem_range h
  rw [metaWord, Octets.take_ofNat_append, Octets.toNat_ofNat_toNat hrange.1 hrange.2]

theorem segmentLengths_append {p : PathHeader} (h : p.Encodable) (octets : List UInt8) :
    segmentLengths (Octets.ofNat metaSize p.writtenMeta.toNat ++ octets)
      = .ok (padLengths p.lengths) := by
  have hlength : ¬ (Octets.ofNat metaSize p.writtenMeta.toNat ++ octets).length < metaSize := by
    rw [List.length_append, Octets.length_ofNat]
    omega
  rw [segmentLengths, if_neg hlength, metaWord_append h, map_get_writtenMeta h]

/-- A header without gaps whose numbers fit is encoded; its octets are as many as its lengths
announce, and decode to it whatever stands behind them. -/
theorem decode_encode {p : PathHeader} (h : p.Encodable)
    (hgap : hasGap (padLengths p.lengths) = false) :
    ∃ raw, p.encode = .ok raw ∧ raw.length = announcedLength p.lengths ∧
      ∀ rest, decode (raw ++ rest) = .ok p.padded := by
  obtain ⟨infos, hops, hinfos, hhops, hraw⟩ := exists_encode h
  have hlength : (Octets.ofNat metaSize p.writtenMeta.toNat
      ++ (infos.flatten ++ hops.flatten)).length = announcedLength p.lengths := by
    rw [List.length_append, List.length_append, Octets.length_ofNat,
      Octets.length_flatten_reads hinfos, Octets.length_flatten_reads hhops, announcedLength,
      length_hops_toNat h, h.length_infos, Nat.add_assoc]
  refine ⟨_, hraw, hlength, ?_⟩
  intro rest
  have hannounced : announcedLength (padLengths p.lengths)
      ≤ (Octets.ofNat metaSize p.writtenMeta.toNat ++ (infos.flatten ++ hops.flatten)
        ++ rest).length := by
    rw [announcedLength_padLengths, List.length_append, hlength]
    exact Nat.le_add_right ..
  have hinfoRow : Octets.readRow InfoField.decode InfoField.size p.infos.length
      (infos.flatten ++ (hops.flatten ++ rest)) = p.infos := Octets.readRow_flatten hinfos _
  have hhopRow : Octets.readRow WireHop.decode WireHop.size p.hops.length
      (hops.flatten ++ rest) = p.hops := Octets.readRow_flatten hhops rest
  rw [List.append_assoc] at hannounced ⊢
  rw [decode_eq_ok (segmentLengths_append h _) hgap hannounced, metaWord_append h,
    List.drop_left' (Octets.length_ofNat ..), segmentCount_padLengths, hopCount_padLengths,
    length_hops_toNat h, ← h.length_infos, ← Octets.length_flatten_reads hinfos,
    List.append_assoc, List.drop_left, hinfoRow, hhopRow, get_currInfField_writtenMeta h,
    get_currHfField_writtenMeta h]
  rfl

/-- The header of three segment slots, of which no used one stands behind an unused one, with as
many fields as they say and with numbers within their widths. -/
structure WellFormed (p : PathHeader) : Prop where
  length_lengths : p.lengths.length = 3
  lengths_mem_range : ∀ length ∈ p.lengths, 0 ≤ length ∧ length ≤ 63
  no_gap : p.lengths.Pairwise fun length behind => length = 0 → behind = 0
  length_infos : p.infos.length = p.lengths.countP (· ≠ 0)
  length_hops : (p.hops.length : Int) = hopCount p.lengths
  segId_mem_range : ∀ info ∈ p.infos, 0 ≤ info.segId ∧ info.segId < 0x10000
  timestamp_mem_range : ∀ info ∈ p.infos, 0 ≤ info.timestamp ∧ info.timestamp < 0x100000000
  ingress_mem_range : ∀ hop ∈ p.hops, 0 ≤ hop.ingress ∧ hop.ingress < 0x10000
  egress_mem_range : ∀ hop ∈ p.hops, 0 ≤ hop.egress ∧ hop.egress < 0x10000
  expiry_mem_range : ∀ hop ∈ p.hops, 0 ≤ hop.expiry ∧ hop.expiry < 0x100
  length_mac : ∀ hop ∈ p.hops, hop.mac.length = 6
  currInf_mem_range : 0 ≤ p.currInf ∧ p.currInf ≤ 3
  currHf_mem_range : 0 ≤ p.currHf ∧ p.currHf ≤ 63

theorem hasGap_eq_false {lengths : List Int}
    (h : lengths.Pairwise fun length behind => length = 0 → behind = 0) :
    hasGap lengths = false := by
  induction h with
  | nil => rfl
  | @cons length rest hbehind _ ih =>
      rw [hasGap, ih, Bool.or_false, Bool.and_eq_false_iff, List.any_eq_false]
      by_cases hzero : length = 0
      · right
        intro behind hmem
        rw [hbehind behind hmem hzero]
        decide
      · left
        exact beq_eq_false_iff_ne.2 hzero

theorem segmentCount_eq_countP {lengths : List Int} (h : ∀ length ∈ lengths, 0 ≤ length) :
    segmentCount lengths = lengths.countP (· ≠ 0) := by
  apply List.countP_congr
  intro length hmem
  have hnonneg := h length hmem
  simp only [decide_eq_true_eq]
  omega

theorem WellFormed.encodable {p : PathHeader} (h : p.WellFormed) : p.Encodable where
  length_lengths := Nat.le_of_eq h.length_lengths
  lengths_fit := h.lengths_mem_range
  length_infos := h.length_infos.trans
    (segmentCount_eq_countP fun length hmem => (h.lengths_mem_range length hmem).1).symm
  length_hops := h.length_hops
  infos_fit := fun info hinfo =>
    { segId_nonneg := (h.segId_mem_range info hinfo).1
      segId_lt := (h.segId_mem_range info hinfo).2
      timestamp_nonneg := (h.timestamp_mem_range info hinfo).1
      timestamp_lt := (h.timestamp_mem_range info hinfo).2 }
  hops_fit := fun hop hhop =>
    { ingress_nonneg := (h.ingress_mem_range hop hhop).1
      ingress_lt := (h.ingress_mem_range hop hhop).2
      egress_nonneg := (h.egress_mem_range hop hhop).1
      egress_lt := (h.egress_mem_range hop hhop).2
      expiry_nonneg := (h.expiry_mem_range hop hhop).1
      expiry_lt := (h.expiry_mem_range hop hhop).2
      length_mac := h.length_mac hop hhop }
  currInf_nonneg := h.currInf_mem_range.1
  currInf_lt := Int.lt_add_one_of_le h.currInf_mem_range.2
  currHf_nonneg := h.currHf_mem_range.1
  currHf_lt := Int.lt_add_one_of_le h.currHf_mem_range.2

theorem WellFormed.padded_eq {p : PathHeader} (h : p.WellFormed) : p.padded = p :=
  padded_eq_self h.length_lengths

/-- A well-formed header is encoded, and its octets decode to it whatever stands behind them. -/
theorem decode_encode_append {p : PathHeader} (h : p.WellFormed) :
    ∃ raw, p.encode = .ok raw ∧ ∀ rest, decode (raw ++ rest) = .ok p := by
  have hgap : hasGap (padLengths p.lengths) = false := by
    change hasGap p.padded.lengths = false
    rw [h.padded_eq]
    exact hasGap_eq_false h.no_gap
  obtain ⟨raw, hraw, _, hdecode⟩ := decode_encode h.encodable hgap
  refine ⟨raw, hraw, ?_⟩
  intro rest
  rw [hdecode rest, h.padded_eq]

/-- A header in the middle of a path of two segments, with every flag set somewhere. -/
def midway : PathHeader where
  lengths := [2, 1, 0]
  infos := [{ constructionDirection := false, segId := 0xffff, timestamp := 0xffffffff
              peer := true },
    { constructionDirection := true, segId := 0, timestamp := 1 }]
  hops := [{ ingress := 0xffff, egress := 0, mac := [1, 2, 3, 4, 5, 6], expiry := 0xff
             egressAlert := true },
    { ingress := 7, egress := 0x100, mac := [0, 0, 0, 0, 0, 0], expiry := 63
      ingressAlert := true },
    { ingress := 0, egress := 8, mac := [0xff, 0, 0xff, 0, 0xff, 0], expiry := 0 }]
  currInf := 1
  currHf := 2

theorem decode_encode_append_midway :
    midway.WellFormed ∧ ∃ raw, midway.encode = .ok raw ∧
      ∀ rest, decode (raw ++ rest) = .ok midway := by
  have h : midway.WellFormed := by constructor <;> decide
  exact ⟨h, decode_encode_append h⟩

end PathHeader

end PathAssembly
