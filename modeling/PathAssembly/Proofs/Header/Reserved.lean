import PathAssembly.Proofs.Header.Acceptance
import PathAssembly.Proofs.Octets

/-!
# Reserved bits

Decoding drops the reserved bits of a header and encoding writes zeros in their places. All other
bits come back: the octets of a header that was decoded are the octets that it was decoded from
with the reserved bits cleared (`encode_decode`). Each word of a header is a word whose fields are
copied from the word that was read, one after the other into a word of zeros. The fields lie apart,
so that such a word is the sum of their parts in the word that was read (`BitField.copyAll_zero`).
-/

namespace PathAssembly

namespace BitField

/-- A word with some fields copied from another one. -/
def copyAll (source : Int) (word : Int) : List BitField → Int
  | [] => word
  | f :: rest => copyAll source (f.set word (f.get source)) rest

/-- The part of a word in some fields. -/
def part (word : Int) : List BitField → Int
  | [] => 0
  | f :: rest => f.get word * f.unit + part word rest

theorem get_zero (f : BitField) : f.get 0 = 0 := by
  rw [get_eq_ediv_emod, Int.zero_ediv, Int.zero_emod]

/-- A single bit is copied by testing it. -/
theorem assign_test {f : BitField} (h : f.capacity = 2) (word source : Int) :
    f.assign word (f.test source) = f.set word (f.get source) := by
  have hlow := f.get_nonneg source
  have hhigh := f.get_lt source
  rw [assign, test]
  rcases (by omega : f.get source = 0 ∨ f.get source = 1) with hget | hget
  · rw [hget]
    rfl
  · rw [hget]
    rfl

/-- Copying fields that lie apart to a word in which they are zero adds their parts. -/
theorem copyAll_eq_add {fields : List BitField} (source : Int) {word : Int}
    (hfits : ∀ f ∈ fields, f.Fits) (hapart : fields.Pairwise Apart)
    (hzero : ∀ f ∈ fields, f.get word = 0) :
    copyAll source word fields = word + part source fields := by
  induction fields generalizing word with
  | nil => exact (Int.add_zero word).symm
  | cons f rest ih =>
      obtain ⟨hbehind, hrest⟩ := List.pairwise_cons.1 hapart
      obtain ⟨hf, hfitsRest⟩ := List.forall_mem_cons.1 hfits
      obtain ⟨hfzero, hzeroRest⟩ := List.forall_mem_cons.1 hzero
      have hset : f.set word (f.get source) = word + f.get source * f.unit := by
        rw [set, hfzero, Int.sub_zero]
      have hkeep : ∀ g ∈ rest, g.get (f.set word (f.get source)) = 0 := by
        intro g hg
        rw [get_set_of_apart hf (hfitsRest g hg) (hbehind g hg) word (f.get_nonneg source)
          (f.get_lt source), hzeroRest g hg]
      rw [copyAll, ih hfitsRest hrest hkeep, hset, part, Int.add_assoc]

theorem copyAll_zero {fields : List BitField} (source : Int) (hfits : ∀ f ∈ fields, f.Fits)
    (hapart : fields.Pairwise Apart) : copyAll source 0 fields = part source fields := by
  rw [copyAll_eq_add source hfits hapart fun f _ => f.get_zero, Int.zero_add]

end BitField

namespace Octets

/-- Fields that are read and written one by one come back without their reserved bits. -/
theorem flatten_encode_readRow {α : Type} {decode : List UInt8 → α}
    {encode : α → Except Fault (List UInt8)} {bits : List UInt8} {size : Nat}
    (hsize : bits.length = size)
    (h : ∀ octets : List UInt8, size ≤ octets.length →
      encode (decode octets) = .ok (clear bits (octets.take size)))
    {count : Nat} {octets : List UInt8} (hlength : count * size ≤ octets.length) :
    ∃ chunks, (readRow decode size count octets).mapM encode = .ok chunks ∧
      chunks.flatten = clear (List.replicate count bits).flatten (octets.take (count * size)) := by
  induction count generalizing octets with
  | zero =>
      refine ⟨[], rfl, ?_⟩
      rw [Nat.zero_mul]
      rfl
  | succ count ih =>
      rw [Nat.add_mul, Nat.one_mul] at hlength
      have hbehind : count * size ≤ (octets.drop size).length := by
        rw [List.length_drop]
        omega
      obtain ⟨chunks, hchunks, hflatten⟩ := ih hbehind
      refine ⟨clear bits (octets.take size) :: chunks, ?_, ?_⟩
      · rw [readRow_succ, List.mapM_cons, h octets (by omega), Outcome.ok_bind, hchunks,
          Outcome.ok_bind]
        rfl
      · have htake : (octets.take size).length = bits.length := by
          rw [List.length_take, hsize]
          omega
        rw [List.flatten_cons, hflatten, List.replicate_succ, List.flatten_cons, Nat.add_mul,
          Nat.one_mul, Nat.add_comm, List.take_add, clear_append htake]

end Octets

namespace InfoField

/-- The reserved bits: the first six of the flags, and the second octet. -/
def reserved : List UInt8 := [0xfc, 0xff, 0, 0, 0, 0, 0, 0]

theorem decode_encodable (octets : List UInt8) : (decode octets).Encodable where
  segId_nonneg := segIdField.get_nonneg _
  segId_lt := segIdField.get_lt _
  timestamp_nonneg := Int.natCast_nonneg _
  timestamp_lt := Octets.toNat_take_lt ..

theorem word_decode (a b c d : UInt8) (rest : List UInt8) :
    (decode (a :: b :: c :: d :: rest)).word
      = Octets.toNat [a &&& ~~~0xfc, b &&& ~~~0xff, c &&& ~~~0, d &&& ~~~0] := by
  have hcopy : (decode (a :: b :: c :: d :: rest)).word
      = BitField.copyAll (Octets.toNat [a, b, c, d]) 0 [peerBit, directionBit, segIdField] := by
    rw [word, flags, decode, BitField.assign_test rfl, BitField.assign_test rfl]
    rfl
  have hparts : BitField.part (Octets.toNat [a, b, c, d]) [peerBit, directionBit, segIdField]
      = Octets.toNat [a, b, c, d] / 0x2000000 % 2 * 0x2000000
        + (Octets.toNat [a, b, c, d] / 0x1000000 % 2 * 0x1000000
        + (Octets.toNat [a, b, c, d] / 1 % 0x10000 * 1 + 0)) := by
    simp only [BitField.part, BitField.get_eq_ediv_emod]
    rfl
  have hb := b.toNat_lt
  have hc := c.toNat_lt
  have hd := d.toNat_lt
  rw [hcopy, BitField.copyAll_zero _ (by decide) (by decide), hparts, Octets.toNat_four,
    Octets.toNat_four, Octets.toNat_and_not_flags, Octets.and_not_all, Octets.and_not_zero,
    Octets.and_not_zero, UInt8.toNat_zero]
  omega

theorem encode_decode_eq {octets : List UInt8} (h : size ≤ octets.length) :
    (decode octets).encode = .ok (Octets.clear reserved (octets.take size)) := by
  rw [encode_eq_ok (decode_encodable octets)]
  unfold size at h
  rcases octets with _ | ⟨a, _ | ⟨b, _ | ⟨c, _ | ⟨d, rest⟩⟩⟩⟩
  · cases h
  · simp at h
  · simp at h
  · simp at h
  · have hrest : (rest.take 4).length = 4 := by
      simp only [List.length_cons] at h
      rw [List.length_take]
      omega
    have htime : Octets.ofNat 4 (Octets.toNat (rest.take 4)) = rest.take 4 :=
      Octets.ofNat_toNat_take (by simp only [List.length_cons] at h; omega)
    have hword := Octets.ofNat_toNat [a &&& ~~~0xfc, b &&& ~~~0xff, c &&& ~~~0, d &&& ~~~0]
    rw [word_decode, Int.toNat_natCast]
    change Except.ok (Octets.ofNat [a &&& ~~~0xfc, b &&& ~~~0xff, c &&& ~~~0, d &&& ~~~0].length _
      ++ Octets.ofNat 4 (Octets.toNat (rest.take 4))) = _
    rw [hword, htime]
    change _ = Except.ok (Octets.clear [0xfc, 0xff, 0, 0] [a, b, c, d]
      ++ Octets.clear (List.replicate 4 0) (rest.take 4))
    rw [Octets.clear_replicate_zero hrest]
    rfl

end InfoField

namespace WireHop

/-- The reserved bits: the first six of the flags. -/
def reserved : List UInt8 := [0xfc, 0, 0, 0, 0, 0, 0, 0, 0, 0, 0, 0]

theorem decode_encodable {octets : List UInt8} (h : size ≤ octets.length) :
    (decode octets).Encodable where
  ingress_nonneg := Int.natCast_nonneg _
  ingress_lt := Octets.toNat_take_lt ..
  egress_nonneg := Int.natCast_nonneg _
  egress_lt := Octets.toNat_take_lt ..
  expiry_nonneg := Int.natCast_nonneg _
  expiry_lt := Octets.toNat_take_lt ..
  length_mac := by
    unfold size at h
    rw [decode, List.length_take, List.length_drop, macLength]
    omega

theorem flags_decode (octet : UInt8) (rest : List UInt8) :
    (decode (octet :: rest)).flags = (octet &&& ~~~0xfc).toNat := by
  have hcopy : (decode (octet :: rest)).flags
      = BitField.copyAll octet.toNat 0 [ingressBit, egressBit] := by
    rw [flags, decode, BitField.assign_test rfl, BitField.assign_test rfl]
    simp [Octets.toNat, BitField.copyAll]
  have hparts : BitField.part octet.toNat [ingressBit, egressBit]
      = octet.toNat / 2 % 2 * 2 + (octet.toNat / 1 % 2 * 1 + 0) := by
    simp only [BitField.part, BitField.get_eq_ediv_emod]
    rfl
  rw [hcopy, BitField.copyAll_zero _ (by decide) (by decide), hparts,
    Octets.toNat_and_not_flags]
  omega

theorem encode_decode_eq {octets : List UInt8} (h : size ≤ octets.length) :
    (decode octets).encode = .ok (Octets.clear reserved (octets.take size)) := by
  rw [encode_eq_ok (decode_encodable h)]
  unfold size at h
  rcases octets with _ | ⟨a, rest⟩
  · cases h
  · have hlength : 11 ≤ rest.length := Nat.le_of_succ_le_succ h
    have hflags : Octets.ofNat 1 (a &&& ~~~0xfc).toNat = [a &&& ~~~0xfc] := by
      rw [Octets.ofNat, UInt8.ofNat_toNat]
      rfl
    have hexpiry : Octets.ofNat 1 (Octets.toNat (rest.take 1)) = rest.take 1 :=
      Octets.ofNat_toNat_take (by omega)
    have hingress : Octets.ofNat 2 (Octets.toNat ((rest.drop 1).take 2)) = (rest.drop 1).take 2 :=
      Octets.ofNat_toNat_take (by rw [List.length_drop]; omega)
    have hegress : Octets.ofNat 2 (Octets.toNat ((rest.drop 3).take 2)) = (rest.drop 3).take 2 :=
      Octets.ofNat_toNat_take (by rw [List.length_drop]; omega)
    -- the numbers and the code stand one behind the other
    have hrest : rest.take 1 ++ ((rest.drop 1).take 2 ++ ((rest.drop 3).take 2
        ++ (rest.drop 5).take 6)) = rest.take 11 := by
      rw [show 11 = 1 + (2 + (2 + 6)) from rfl, List.take_add, List.take_add, List.take_add,
        List.drop_drop, List.drop_drop]
    rw [flags_decode, Int.toNat_natCast]
    change Except.ok (Octets.ofNat 1 (a &&& ~~~0xfc).toNat
      ++ (Octets.ofNat 1 (Octets.toNat (rest.take 1))
      ++ (Octets.ofNat 2 (Octets.toNat ((rest.drop 1).take 2))
      ++ (Octets.ofNat 2 (Octets.toNat ((rest.drop 3).take 2)) ++ (rest.drop 5).take 6)))) = _
    rw [hflags, hexpiry, hingress, hegress, hrest]
    change _ = Except.ok (Octets.clear [0xfc] [a]
      ++ Octets.clear (List.replicate 11 0) (rest.take 11))
    rw [Octets.clear_replicate_zero (List.length_take_of_le hlength)]
    rfl

end WireHop

namespace PathHeader

def metaReserved : List UInt8 := [0, 0xfc, 0, 0]

def metaFields : List BitField :=
  [currInfField, currHfField, lengthField 0, lengthField 1, lengthField 2]

theorem writtenMeta_ofOctets {raw : List UInt8} {lengths : List Int}
    (h : segmentLengths raw = .ok lengths) :
    (ofOctets raw lengths).writtenMeta = BitField.copyAll (metaWord raw) 0 metaFields := by
  rw [segmentLengths] at h
  split at h
  next => cases h
  next =>
    cases h
    rfl

theorem copyAll_metaFields (a b c d : UInt8) :
    BitField.copyAll (Octets.toNat [a, b, c, d]) 0 metaFields
      = Octets.toNat (Octets.clear metaReserved [a, b, c, d]) := by
  have hclear : Octets.clear metaReserved [a, b, c, d]
      = [a &&& ~~~0, b &&& ~~~0xfc, c &&& ~~~0, d &&& ~~~0] := rfl
  have hparts : BitField.part (Octets.toNat [a, b, c, d]) metaFields
      = Octets.toNat [a, b, c, d] / 0x40000000 % 4 * 0x40000000
        + (Octets.toNat [a, b, c, d] / 0x1000000 % 64 * 0x1000000
        + (Octets.toNat [a, b, c, d] / 0x1000 % 64 * 0x1000
        + (Octets.toNat [a, b, c, d] / 0x40 % 64 * 0x40
        + (Octets.toNat [a, b, c, d] / 1 % 64 * 1 + 0)))) := by
    simp only [BitField.part, metaFields, BitField.get_eq_ediv_emod]
    rfl
  have ha := a.toNat_lt
  have hb := b.toNat_lt
  have hc := c.toNat_lt
  have hd := d.toNat_lt
  rw [BitField.copyAll_zero _ (by decide) (by decide), hparts, hclear, Octets.toNat_four,
    Octets.toNat_four, Octets.toNat_and_not_flags, Octets.and_not_zero, Octets.and_not_zero,
    Octets.and_not_zero]
  omega

variable {raw : List UInt8} {lengths : List Int} {p : PathHeader}

/-- The meta word of a header that was read is written without its reserved bits. -/
theorem ofNat_writtenMeta_ofOctets (h : segmentLengths raw = .ok lengths)
    (hlength : metaSize ≤ raw.length) :
    Octets.ofNat metaSize (ofOctets raw lengths).writtenMeta.toNat
      = Octets.clear metaReserved (raw.take metaSize) := by
  unfold metaSize at hlength
  rw [writtenMeta_ofOctets h]
  rcases raw with _ | ⟨a, _ | ⟨b, _ | ⟨c, _ | ⟨d, rest⟩⟩⟩⟩
  · cases hlength
  · simp at hlength
  · simp at hlength
  · simp at hlength
  · change Octets.ofNat metaSize (BitField.copyAll (Octets.toNat [a, b, c, d]) 0 metaFields).toNat
      = Octets.clear metaReserved [a, b, c, d]
    rw [copyAll_metaFields, Int.toNat_natCast]
    exact Octets.ofNat_toNat (Octets.clear metaReserved [a, b, c, d])

def reservedBits (lengths : List Int) : List UInt8 :=
  metaReserved ++ (List.replicate (segmentCount lengths) InfoField.reserved).flatten
    ++ (List.replicate (hopCount lengths).toNat WireHop.reserved).flatten

theorem length_reservedBits (lengths : List Int) :
    (reservedBits lengths).length = announcedLength lengths := by
  simp [reservedBits, announcedLength, metaReserved, metaSize, InfoField.reserved, InfoField.size,
    WireHop.reserved, WireHop.size]
  omega

theorem hopCount_eq_sum (lengths : List Int) : hopCount lengths = lengths.sum := by
  induction lengths with
  | nil => rfl
  | cons length rest ih => rw [hopCount, ih, List.sum_cons]

theorem hopCount_nonneg (h : ∀ length ∈ lengths, LengthFits length) : 0 ≤ hopCount lengths := by
  induction lengths with
  | nil => exact Int.le_refl 0
  | cons length rest ih =>
      obtain ⟨hlength, hrest⟩ := List.forall_mem_cons.1 h
      exact Int.add_nonneg hlength.1 (ih hrest)

theorem lengthFits_of_segmentLengths (h : segmentLengths raw = .ok lengths) :
    ∀ length ∈ lengths, LengthFits length := by
  rw [segmentLengths] at h
  split at h
  next => cases h
  next =>
    cases h
    intro length hlength
    obtain ⟨slot, _, rfl⟩ := List.mem_map.1 hlength
    exact ⟨BitField.get_nonneg .., Int.le_of_lt_add_one (BitField.get_lt ..)⟩

theorem length_of_segmentLengths (h : segmentLengths raw = .ok lengths) :
    lengths.length = maxSegments := by
  rw [segmentLengths] at h
  split at h
  next => cases h
  next =>
    cases h
    rfl

theorem exists_encode_rows (hlength : announcedLength lengths ≤ raw.length) :
    ∃ infos hops, (ofOctets raw lengths).infos.mapM InfoField.encode = .ok infos ∧
      (ofOctets raw lengths).hops.mapM WireHop.encode = .ok hops ∧
      infos.flatten
        = Octets.clear (List.replicate (segmentCount lengths) InfoField.reserved).flatten
          ((raw.drop metaSize).take (segmentCount lengths * InfoField.size)) ∧
      hops.flatten = Octets.clear (List.replicate (hopCount lengths).toNat WireHop.reserved).flatten
        (((raw.drop metaSize).drop (segmentCount lengths * InfoField.size)).take
          ((hopCount lengths).toNat * WireHop.size)) := by
  rw [announcedLength] at hlength
  have hinfoLength : segmentCount lengths * InfoField.size ≤ (raw.drop metaSize).length := by
    rw [List.length_drop]
    omega
  have hhopLength : (hopCount lengths).toNat * WireHop.size
      ≤ ((raw.drop metaSize).drop (segmentCount lengths * InfoField.size)).length := by
    rw [List.length_drop, List.length_drop]
    omega
  obtain ⟨infos, hinfos, hinfoRow⟩ := Octets.flatten_encode_readRow rfl
    (fun _ h => InfoField.encode_decode_eq h) hinfoLength
  obtain ⟨hops, hhops, hhopRow⟩ := Octets.flatten_encode_readRow rfl
    (fun _ h => WireHop.encode_decode_eq h) hhopLength
  exact ⟨infos, hops, hinfos, hhops, hinfoRow, hhopRow⟩

theorem encodable_ofOctets (h : segmentLengths raw = .ok lengths)
    (hlength : announcedLength lengths ≤ raw.length) : (ofOctets raw lengths).Encodable := by
  obtain ⟨infos, hops, hinfos, hhops, _, _⟩ := exists_encode_rows hlength
  have hfits := lengthFits_of_segmentLengths h
  exact
    { length_lengths := Nat.le_of_eq (length_of_segmentLengths h)
      lengths_fit := hfits
      length_infos := by
        change (Octets.readRow ..).length = _
        rw [Octets.readRow, List.length_map, List.length_range]
        rfl
      length_hops := by
        change ((Octets.readRow ..).length : Int) = hopCount lengths
        rw [Octets.readRow, List.length_map, List.length_range,
          Int.toNat_of_nonneg (hopCount_nonneg hfits)]
      infos_fit := by
        intro info hinfo
        obtain ⟨_, hinfo⟩ := Outcome.exists_eq_ok_of_mem hinfos info hinfo
        exact InfoField.encodable_of_encode hinfo
      hops_fit := by
        intro hop hhop
        obtain ⟨_, hhop⟩ := Outcome.exists_eq_ok_of_mem hhops hop hhop
        exact WireHop.encodable_of_encode hhop
      currInf_nonneg := currInfField.get_nonneg _
      currInf_lt := currInfField.get_lt _
      currHf_nonneg := currHfField.get_nonneg _
      currHf_lt := currHfField.get_lt _ }

/-- A header that was read is written without its reserved bits. -/
theorem encode_ofOctets (h : segmentLengths raw = .ok lengths)
    (hlength : announcedLength lengths ≤ raw.length) :
    (ofOctets raw lengths).encode
      = .ok (Octets.clear (reservedBits lengths) (raw.take (announcedLength lengths))) := by
  obtain ⟨infos, hops, hinfos, hhops, hinfoRow, hhopRow⟩ := exists_encode_rows hlength
  have hstart : metaSize ≤ raw.length := by
    rw [announcedLength] at hlength
    omega
  have hmeta : (raw.take metaSize).length = metaReserved.length := List.length_take_of_le hstart
  have hinfoBits : (raw.take metaSize
        ++ (raw.drop metaSize).take (segmentCount lengths * InfoField.size)).length
      = (metaReserved
        ++ (List.replicate (segmentCount lengths) InfoField.reserved).flatten).length := by
    rw [announcedLength] at hlength
    rw [List.length_append, List.length_append, hmeta, List.length_flatten,
      List.map_replicate, List.sum_replicate_nat, List.length_take, List.length_drop,
      Nat.min_eq_left (by omega)]
    rfl
  rw [encode_eq_bind (encodable_ofOctets h hlength), hinfos, hhops,
    ofNat_writtenMeta_ofOctets h hstart, Outcome.ok_bind, Outcome.ok_bind, hinfoRow, hhopRow,
    reservedBits, announcedLength, List.take_add, List.take_add, ← List.drop_drop,
    Octets.clear_append hinfoBits, Octets.clear_append hmeta]
  rfl

theorem announcedLength_eq (h : ∀ length ∈ lengths, LengthFits length) :
    announcedLength lengths = 4 + 8 * lengths.countP (· ≠ 0) + 12 * lengths.sum.toNat := by
  rw [announcedLength, segmentCount_eq_countP fun length hlength => (h length hlength).1,
    hopCount_eq_sum, metaSize, InfoField.size, WireHop.size]
  omega

/-- A header that was read is encoded to the octets from which it was read, with the reserved bits
cleared and all other bits kept. These are the same octets exactly if the reserved bits were zero,
and they are read as the same header. -/
theorem encode_decode (h : decode raw = .ok p) :
    ∃ n out, n = 4 + 8 * p.lengths.countP (· ≠ 0) + 12 * p.lengths.sum.toNat ∧
      n ≤ raw.length ∧ (reservedBits p.lengths).length = n ∧
      p.encode = .ok out ∧ out = Octets.clear (reservedBits p.lengths) (raw.take n) ∧
      (out = raw.take n ↔ ∀ pair ∈ (raw.take n).zip (reservedBits p.lengths),
        pair.1 &&& pair.2 = 0) ∧
      decode out = .ok p := by
  obtain ⟨hlengths, hgap, hlength, hp⟩ := decode_eq_ok_iff.1 h
  have hencode := encode_ofOctets hlengths hlength
  rw [hp] at hencode
  have hbits : (raw.take (announcedLength p.lengths)).length = (reservedBits p.lengths).length := by
    rw [List.length_take_of_le hlength, length_reservedBits]
  refine ⟨announcedLength p.lengths, _, announcedLength_eq (lengthFits_of_segmentLengths hlengths),
    hlength, length_reservedBits _, hencode, rfl, Octets.clear_eq_self_iff hbits, ?_⟩
  rw [decode_of_encode_of_no_gap hencode hgap,
    padded_eq_self (length_of_segmentLengths hlengths)]

/-- The octets of `twoHops` with reserved bits set in every field, and an octet behind them. -/
def twoHopsDirty : List UInt8 :=
  [1, 0xfc, 0x10, 0x40, 0x84, 0xff, 0, 1, 0, 0, 0, 2, 0xff, 1, 0, 3, 0, 0, 0, 4,
    0x80, 63, 0, 5, 0, 6, 0xa0, 0xa1, 0xa2, 0xa3, 0xa4, 0xa5,
    0xfe, 9, 7, 0, 0, 8, 0, 0, 0, 0, 0, 0xff, 0x77]

theorem encode_decode_twoHopsDirty : decode twoHopsDirty = .ok twoHops.padded ∧
    ∃ n out, n = 44 ∧ n ≤ twoHopsDirty.length ∧
      (reservedBits twoHops.padded.lengths).length = n ∧ twoHops.padded.encode = .ok out ∧
      out = Octets.clear (reservedBits twoHops.padded.lengths) (twoHopsDirty.take n) ∧
      (out = twoHopsDirty.take n ↔
        ∀ pair ∈ (twoHopsDirty.take n).zip (reservedBits twoHops.padded.lengths),
          pair.1 &&& pair.2 = 0) ∧
      decode out = .ok twoHops.padded := by
  have hread : decode twoHopsDirty = .ok twoHops.padded := by decide +kernel
  exact ⟨hread, encode_decode hread⟩

end PathHeader

end PathAssembly
